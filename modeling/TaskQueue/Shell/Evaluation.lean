import TaskQueue.Shell.Calling
import TaskQueue.Shell.Child

/-!
# Running scripts

A script is run command by command.  A command that runs as a process of its own leaves only what it
does to shared things, and its status.  Each nested step takes one of a number of steps, which is larger
than any script needs that comes to an end.
-/

namespace TaskQueue.Shell

namespace Action

/-- The number of calls of functions that may be open. -/
def maxCalls : Nat := 1000

/-- The number of texts that may be run, each by the one before; with more the memory for calls is
used up. -/
def maxTexts : Nat := 1000

/-- The command after `command` and its options, unless it is not clear yet. -/
def effective? : List String → Option (List String × Bool)
  | [] => none
  | "command" :: rest => go ("command" :: rest) rest
  | args => some (args, false)
where
  /-- Passes over options; with others than `p` the command is the first one itself. -/
  go (whole : List String) : List String → Option (List String × Bool)
    | [] => none
    | a :: rest =>
      match a.toList with
      | ['-', '-'] => if rest.isEmpty then none else some (rest, true)
      | '-' :: c :: cs =>
        if (c :: cs).all (· = 'p') then go whole rest else some (whole, false)
      | _ => some (a :: rest, true)

inductive Kind where
  | nothing
  | special
  | regular
  | function (f : Function)
  | program

def kindOf (s : State) (name? : Option String) (viaCommand : Bool) : Kind :=
  match name? with
  | none => .nothing
  | some name =>
    if Builtin.isSpecial name then .special
    else
      match if viaCommand then none else s.functions.find? fun f => f.name = name with
      | some f => .function f
      | none => if Builtin.isKnown name then .regular else .program

structure Mode where
  /-- Whether its failure is looked at, so that it does not end a shell that stops at failures. -/
  looked : Bool
  last : Bool

namespace Mode

def plain : Mode := ⟨false, false⟩

def asked : Mode := ⟨true, false⟩

def notLast (m : Mode) : Mode :=
  { m with last := false }

end Mode

def inLoop (f : Action Nat) : Action Nat := do
  modify fun s => { s with loops := s.loops + 1 }
  let status ← f
  modify fun s => { s with loops := s.loops - 1 }
  return status

/-- Takes up what a round of a loop leaves out: whether the loop ends. -/
def afterRound : Action (Bool × Bool) :=
  modifyGet fun s =>
    match s.skip with
    | none => ((false, false), s)
    | some (.leave n) => ((true, true), { s with skip := if n ≤ 1 then none else some (.leave (n - 1)) })
    | some (.resume n) =>
      if n ≤ 1 then ((true, false), { s with skip := none })
      else ((true, true), { s with skip := some (.resume (n - 1)) })
    | some .function => ((true, true), s)

mutual

def run : Nat → Mode → Script → Action Nat
  | 0, _, _ => exhaust
  | n + 1, mode, script => do
    if (← get).has 'n' then return (← get).status
    step
    runTraps n
    let checked : Action Nat → Action Unit := fun f => do
      let status ← f
      setStatus status
      runTraps n
      if (← get).has 'e' ∧ ¬mode.looked ∧ status ≠ 0 then throw .exit
    let unchecked : Action Nat → Action Unit := fun f => do
      setStatus (← f)
      runTraps n
    match script with
    | .simple line assignments words rs => checked (runSimple n mode line assignments words rs)
    | .pipe stages background => checked (runPipe n background stages)
    | .subshell line a rs => checked (runSubshell n line mode a rs)
    | .background line a rs =>
      checked do
        setLine line
        defer 1 a rs
        return 0
    | .sequence a b =>
      let _ ← run n mode.notLast a
      if (← get).skip.isNone then unchecked (run n mode b)
    | .both a b =>
      let status ← run n .asked a
      if status = 0 ∧ (← get).skip.isNone then unchecked (run n mode b)
    | .either a b =>
      let status ← run n .asked a
      if status ≠ 0 ∧ (← get).skip.isNone then unchecked (run n mode b)
    | .negation a =>
      unchecked do
        let status ← run n .asked a
        return if status = 0 then 1 else 0
    | .redirected line a rs =>
      setLine line
      unchecked do
        let ds ← directions n rs
        withDescriptors (ds.map (·.descriptor)) do
          if ← directAll (fill n) ds then run n mode.notLast a else return 2
    | .branch condition yes no =>
      let status ← run n .asked condition
      if (← get).skip.isNone then
        if status = 0 then unchecked (run n mode yes)
        else
          match no with
          | some no => unchecked (run n mode no)
          | none => setStatus 0
    | .loop inverted condition body =>
      unchecked (inLoop (runLoop n mode.notLast inverted condition body 0))
    | .each line name words body =>
      setLine line
      unchecked do
        let values ← Expansion.allFields (printed n) words
        inLoop (runEach n mode.notLast name values body 0)
    | .choice line subject cases =>
      setLine line
      unchecked do
        let text ← Expansion.text (printed n) .value subject
        runCases n mode text.toList cases
    | .definition line name body =>
      modify fun s =>
        { s with functions := ⟨name, line, body⟩ :: s.functions.filter fun f => f.name ≠ name }
      setStatus 0
    return (← get).status

/-- Runs a loop; `last` is the status of the round before. -/
def runLoop : Nat → Mode → Bool → Script → Script → Nat → Action Nat
  | 0, _, _, _, _, _ => exhaust
  | n + 1, mode, inverted, condition, body, last => do
    let status ← run n .asked condition
    let isFunction := (← get).skip = some .function
    let (skips, ends) ← afterRound
    let last := if isFunction then status else last
    if ends then return last
    else if skips then runLoop n mode inverted condition body last
    else if decide (status = 0) = inverted then return last
    else
      let status ← run n mode body
      let (_, ends) ← afterRound
      if ends then return status else runLoop n mode inverted condition body status

def runEach : Nat → Mode → String → List String → Script → Nat → Action Nat
  | 0, _, _, _, _, _ => exhaust
  | _, _, _, [], _, last => return last
  | n + 1, mode, name, value :: values, body, _ => do
    assign name value
    let status ← run n mode body
    let (_, ends) ← afterRound
    if ends then return status else runEach n mode name values body status

/-- Runs what stands after the first pattern that a text matches. -/
def runCases : Nat → Mode → List Char → List (List Word × Option Script) → Action Nat
  | 0, _, _, _ => exhaust
  | _, _, _, [] => return 0
  | n + 1, mode, text, (patterns, body) :: cases => do
    if ← matchesAny n text patterns then
      match body with
      | some body => run n mode body
      | none => return 0
    else runCases n mode text cases

def matchesAny : Nat → List Char → List Word → Action Bool
  | 0, _, _ => exhaust
  | _, _, [] => return false
  | n + 1, text, w :: ws => do
    if (← Expansion.pattern (printed n) w).accepts text then return true
    else matchesAny n text ws

def directions : Nat → List Redirection → Action (List Direction)
  | 0, _ => exhaust
  | _, [] => return []
  | n + 1, r :: rs => do
    let d ← match r with
      | .file descriptor use name =>
        pure (.file descriptor use (← Expansion.text (printed n) .value name))
      | .copy descriptor source => pure (.copy descriptor source)
      | .copyNamed descriptor name =>
        match Grammar.copiedStream? (← Expansion.text (printed n) .value name) with
        | some source => pure (.copy descriptor source)
        | none =>
          setLine (← get).lineRead
          fail "Syntax error: Bad fd number"
      | .document descriptor number =>
        pure (.text descriptor (((← get).documents[number]?).getD []))
    return d :: (← directions n rs)

def fill : Nat → Word → Action String
  | 0, _ => exhaust
  | n + 1, w => Expansion.text (printed n) .document w

/-- Fills in the words of a command.  Those that are assignments are not split if the command takes
assignments. -/
def commandWords : Nat → List String → List Word → Action (List String)
  | 0, _, _ => exhaust
  | _, done, [] => return done
  | n + 1, done, w :: ws => do
    let s ← get
    let takes : Bool :=
      match effective? done with
      | some (name :: _, viaCommand) =>
        Builtin.takesAssignments name &&
          (viaCommand || !s.functions.any fun f => f.name = name)
      | _ => false
    let more ←
      if takes ∧ w.assigned?.isSome then
        pure [← Expansion.text (printed n) .assignment w]
      else Expansion.fields (printed n) w
    commandWords n (done ++ more) ws

/-- Sets the variables before a command, and gives what has been set. -/
def assignAll : Nat → Bool → Bool → List Word → Action (List String)
  | 0, _, _, _ => exhaust
  | _, _, _, [] => return []
  | n + 1, isLocal, exported, w :: ws => do
    let text ← Expansion.text (printed n) .assignment w
    let (name, value) := Builtin.splitAssignment text
    if isLocal then saveVariable name
    assign name (value.getD "")
    if isLocal ∨ exported then
      modify fun s => ((s.lookup? name).map fun v => s.putVariable { v with exported := true }).getD s
    return text :: (← assignAll n isLocal exported ws)

def runSimple : Nat → Mode → Nat → List Word → List Word → List Redirection → Action Nat
  | 0, _, _, _, _, _ => exhaust
  | n + 1, mode, line, assignments, words, rs => do
    modify fun s => { s with line, outputStatus := 0 }
    let all ← commandWords n [] words
    let (args, viaCommand) := (effective? all).getD (all, false)
    let kind := kindOf (← get) args.head? viaCommand
    let isSpecial : Bool :=
      match kind with
      | .special => !viaCommand
      | _ => false
    let isLocal : Bool :=
      match kind with
      | .nothing => false
      | _ => !isSpecial
    let isExec : Bool := args.head? = some "exec"
    let before ← get
    let ds ← directions n rs
    let perform : Action Nat := do
      if ← directAll (fill n) ds then
        let texts ← assignAll n isLocal (isExec && 1 < args.length) assignments
        trace n before (texts ++ all)
        runCommand n mode kind isSpecial args
      else if isSpecial then
        setStatus 2
        throw .error
      else return 2
    let performed := if isLocal then withSaved perform else perform
    if isExec then performed else withDescriptors (ds.map (·.descriptor)) performed

/-- Fills in a text as if it were a document. -/
def filled : Nat → String → Action String
  | 0, _ => exhaust
  | n + 1, text => do
    let s ← get
    let document : Waiting := ⟨0, ['\n'], false, false⟩
    match Word.readDocument (Grammar.innerOf Grammar.maxSteps) Grammar.maxSteps document
      (.ofScript text s.documents s.aliases) with
    | .ok w source =>
      set { s with documents := source.documents }
      fill n w
    | .error _ _ => return text

/-- Shows a command before it is run, if that is asked for, where complaints went before. -/
def trace : Nat → State → List String → Action Unit
  | 0, _, _ => exhaust
  | n + 1, before, texts => do
    let s ← get
    if s.has 'x' then
      set { s with options := s.options.filter (· ≠ 'x') }
      let start ← filled n ((s.value? "PS4").getD "")
      modify fun t => { t with options := s.options, descriptors := before.descriptors }
      let _ ← write 2 (start ++ spaced texts ++ "\n")
      modify fun t => { t with descriptors := s.descriptors }

def runCommand : Nat → Mode → Kind → Bool → List String → Action Nat
  | 0, _, _, _, _ => exhaust
  | n + 1, mode, kind, isSpecial, args => do
    let name := args.headD ""
    let arguments := args.drop 1
    let builtin : Action Nat := about (some name) (runBuiltin n mode.notLast name arguments)
    match kind with
    | .nothing => return (← get).outputStatus
    | .function f => runFunction n mode.notLast f arguments
    | .program => runProgram n mode.last name arguments
    | _ =>
      if isSpecial then builtin
      else
        try builtin
        catch stop => if stop = .error then return (← get).status else throw stop

def runBuiltin : Nat → Mode → String → List String → Action Nat
  | 0, _, _, _ => exhaust
  | n + 1, mode, name, arguments => do
    match name with
    | "eval" =>
      runText n mode (spaced arguments)
    | "." =>
      let (_, rest) ← Builtin.options "" arguments
      match rest with
      | [] => return 0
      | path :: _ =>
        let (path, text) ← sourceText path
        let status ← about (some path) (runText n mode text)
        modify fun s => { s with skip := s.skip.filter (· ≠ .function) }
        return status
    | "exec" =>
      match arguments with
      | [] => return 0
      | name :: arguments => replace n name arguments
    | "command" =>
      let (os, rest) ← Builtin.options "pvV" arguments
      match rest.head?, os.any fun o => o.1 = 'v' ∨ o.1 = 'V' with
      | some name, true =>
        let (text, found) ← Builtin.describe name (¬os.any fun o => o.1 = 'V')
        let code ← Builtin.print text
        return if found then code else 127
      | _, _ => return 0
    | "wait" =>
      runDeferred n
      Builtin.wait arguments
    | name => Builtin.run name arguments

def replace : Nat → String → List String → Action Nat
  | 0, _, _ => exhaust
  | n + 1, name, arguments => do
    match ← Builtin.find name with
    | .error flaw =>
      let (message, code) := flaw.complaint
      warn (name ++ ": " ++ message)
      setStatus code
      throw .exit
    | .ok (_, program) =>
      runDeferred n
      modify fun s => { s with traps := s.traps.filter fun p => p.2 = "" }
      let (status, signal) ← runChild (runIn n program name arguments)
      setStatus status
      throw (signal.elim .exit .killed)

/-- Runs a program as a process of its own, or in the place of a process that ends with it. -/
def runProgram : Nat → Bool → String → List String → Action Nat
  | 0, _, _, _ => exhaust
  | n + 1, replaces, name, arguments => do
    match ← Builtin.find name with
    | .error flaw =>
      let (message, code) := flaw.complaint
      warn (name ++ ": " ++ message)
      return if name.toList.contains '/' then code else 127
    | .ok (_, program) =>
      if replaces ∧ (← get).traps.all fun p => p.2 = "" then
        let (status, signal) ← runChild (runIn n program name arguments)
        setStatus status
        throw (signal.elim .exit .killed)
      else
        runDeferred n
        await (runIn n program name arguments)

def runIn : Nat → String → String → List String → Action Unit
  | 0, _, _, _ => exhaust
  | n + 1, program, name, arguments => do
    if program = "sh" ∨ program = "dash" then
      let s ← get
      let process := s.outside.nextProcess
      let outside := { s.outside with nextProcess := process + 1 }
      set (State.start outside s.directory s.environment s.descriptors process s.allowance)
      modify fun t => { t with name := name, ignored := s.passedOver }
      runShell n arguments
    else setStatus (← Programs.run program name arguments)

def runShell : Nat → List String → Action Unit
  | 0, _ => exhaust
  | n + 1, arguments =>
    conclude n do
      let c ← called arguments
      modify fun s => { s with name := c.name, arguments := c.arguments, line := 1 }
      let _ ← runText n .plain c.script

def runFunction : Nat → Mode → Function → List String → Action Nat
  | 0, _, _, _ => exhaust
  | n + 1, mode, f, arguments => do
    let s ← get
    if maxCalls ≤ s.calls then
      fail s!"Maximum function recursion depth ({maxCalls}) reached"
    set { s with arguments, loops := 0, calls := s.calls + 1, optionOffset := none }
    try run n mode f.body
    finally
      modify fun t =>
        { t with
          arguments := s.arguments, loops := s.loops, calls := s.calls
          optionOffset := s.optionOffset, skip := t.skip.filter (· ≠ .function) }

/-- Runs the commands of a pipeline one after the other; the status is that of the last one. -/
def runPipe : Nat → Bool → List Script → Action Nat
  | 0, _, _ => exhaust
  | n + 1, background, stages => do
    if background then
      defer stages.length (.pipe stages false) []
      return 0
    else
      let before := (← get).descriptors
      runDeferred n
      let status ← runStages n stages
      modify fun s => { s with descriptors := before }
      return status

def runStages : Nat → List Script → Action Nat
  | 0, _ => exhaust
  | _, [] => return 0
  | n + 1, stage :: more => do
    let s ← get
    if more.isEmpty then await (runApart n .plain stage [])
    else
      let (k, outside) := s.outside.openBuffer []
      set { s with outside }
      let _ ← await do
        modify fun s => s.direct 1 (some k)
        limitWriter
        runApart n .plain stage []
      modify fun t => { t with status := s.status }.direct 0 (some k)
      runStages n more

/-- Runs a script as a process of its own, in that process. -/
def runApart : Nat → Mode → Script → List Redirection → Action Unit
  | 0, _, _, _ => exhaust
  | n + 1, mode, script, rs => do
    enterSubshell
    conclude n do
      let ds ← directions n rs
      for d in ds do direct (fill n) d
      let _ ← run n { mode with last := true } script

def runSubshell : Nat → Nat → Mode → Script → List Redirection → Action Nat
  | 0, _, _, _, _ => exhaust
  | n + 1, line, mode, script, rs => do
    setLine line
    runDeferred n
    await (runApart n mode script rs)

def runDeferred : Nat → Action Unit
  | 0 => exhaust
  | n + 1 => do
    let s ← get
    unless s.deferred.isEmpty do
      set { s with deferred := [] }
      for d in s.deferred.reverse do
        let (status, signal) ← runChild do
          enterDeferred d
          limitWriter
          runApart n .plain d.script d.redirections
        Builtin.changeJob d.process fun j => { j with status, signal }
      setStatus s.status
      takeSignals

def printed : Nat → Option Script → Action String
  | 0, _ => exhaust
  | _, none => return ""
  | n + 1, some script => do
    runDeferred n
    let s ← get
    let (k, outside) := s.outside.openBuffer []
    set { s with outside }
    let status ← await do
      modify fun s => s.direct 1 (some k)
      runApart n .plain script []
    modify fun t => { t with outputStatus := status, status := s.status }
    return Bytes.letters (((← get).outside.pending? k).getD [])

/-- Does what is to be done on signals that have been caught. -/
def runTraps : Nat → Action Unit
  | 0 => exhaust
  | n + 1 => do
    let s ← get
    match s.caught with
    | [] => return
    | signal :: more =>
      if s.skip.isSome then return
      set { s with caught := more }
      match s.traps.lookup signal with
      | some action =>
        let _ ← runText n .plain action
        if (← get).skip ≠ some .function then setStatus s.status
      | none => pure ()
      runTraps n

/-- Runs something to its end, then what is to be done at the end of a shell, and then what has been
put off. -/
def conclude : Nat → Action Unit → Action Unit
  | 0, _ => exhaust
  | n + 1, f => do
    tillEnd f
    let s ← get
    match s.traps.lookup 0 with
    | none => pure ()
    | some action =>
      set { s with
        traps := s.traps.filter (fun p => p.1 ≠ 0), skip := none, endStatus := some s.status }
      match ← apartly (runText n .plain action) with
      | none => setStatus s.status
      | some _ => pure ()
    runDeferred n

def runText : Nat → Mode → String → Action Nat
  | 0, _, _ => exhaust
  | n + 1, mode, text => do
    let s ← get
    if maxTexts ≤ s.texts then throw (.killed 11)
    set { s with texts := s.texts + 1 }
    try runLines n mode (.ofScript text s.documents s.aliases) 0
    finally modify fun t => { t with texts := s.texts, lineRead := s.lineRead }

/-- Runs the lines of a source; each is read when the ones before it have been run. -/
def runLines : Nat → Mode → Source → Nat → Action Nat
  | 0, _, _, _ => exhaust
  | n + 1, mode, source, last => do
    let s ← get
    match Script.line? { source with documents := s.documents, aliases := s.aliases } with
    | .error flaw source =>
      setLine source.line
      fail flaw.message
    | .ok none _ => return last
    | .ok (some none) source => runLines n mode source last
    | .ok (some (some script)) source =>
      set { s with documents := source.documents, lineRead := source.line }
      let status ← run n mode script
      if (← get).skip.isSome then return status else runLines n mode source status

end

/-- The number of nested steps that a script may take, which none needs. -/
def maxNested : Nat := 2 ^ (40 : Nat)

/-- The number of steps that a command may take. -/
def maxSteps : Nat := 2 ^ (21 : Nat)

end Action

end TaskQueue.Shell
