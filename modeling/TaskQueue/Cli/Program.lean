import TaskQueue.Cli.Arguments
import TaskQueue.Cli.Work
import TaskQueue.Store.Database

/-!
# The program

The program reads its arguments and its configuration, opens the database, and carries out what it
is asked to do.
-/

namespace TaskQueue.Cli

open Config (EngineConfig)
open Store (Session Target)

def databaseVariable : String := "DATABASE_URL"

def versionText : String := "taskmill 0.1.0\n"

def helpText : String :=
  String.intercalate "\n"
    ["taskmill - a serial, schedule-aware task queue", "",
     "Usage: taskmill [OPTIONS] <COMMAND>", "",
     "Commands: enqueue, show, list, pause, retry, archive, delete, logs, run, help",
     "Options: --database-url <URL>, --config <FILE>, --verbose, --help, --version", ""]

inductive ProgramEnd where
  | refused
  | printed (text : String)
  | reported (r : Report)
  deriving DecidableEq, Repr

namespace ProgramEnd

def ofNoOrders : NoOrders → ProgramEnd
  | .version => .printed versionText
  | .help => .printed helpText
  | .refused => .refused

def ofFailure (f : Failure) : ProgramEnd :=
  .reported (.fail f)

def exitCode : ProgramEnd → Nat
  | .refused => 2
  | .printed _ => 0
  | .reported r =>
    match r.ending with
    | .done => 0
    | .failed _ => 1
    | .crashed => 101

def stdout : ProgramEnd → String
  | .refused => ""
  | .printed text => text
  | .reported r => r.text

def errorText? : ProgramEnd → Option String
  | .reported ⟨_, .failed f⟩ => some s!"Error: {f.message}"
  | _ => none

end ProgramEnd

/-- What is to be done, and with which configuration. -/
structure Plan where
  config : EngineConfig
  action : Action

namespace Plan

/-- The configuration for some orders; the address of the database may be given apart. -/
def configure (s : Config.Surroundings) (o : Orders) : Except Failure EngineConfig :=
  match s.loadOrDefault o.config with
  | .error e => .error (.configuration e)
  | .ok c =>
    let url? := o.databaseUrl.or (s.env.get? databaseVariable)
    let c := { c with databaseUrl := url?.getD c.databaseUrl }
    match c.flaw? with
    | some flaw => .error (.invalidConfiguration flaw)
    | none => .ok c

def ofArguments (s : Config.Surroundings) (args : List String) : Except ProgramEnd Plan :=
  match Orders.ofArguments args with
  | .error e => .error (.ofNoOrders e)
  | .ok o =>
    match configure s o with
    | .error f => .error (.ofFailure f)
    | .ok config => .ok ⟨config, o.action⟩

def target (p : Plan) : Target :=
  (Store.Location.ofUrl p.config.databaseUrl).target

def cannotOpen (p : Plan) : ProgramEnd :=
  .ofFailure (.cannotOpen p.config.databaseUrl)

/-- How many looks at a log are taken when nothing happens in between. -/
def maxLooks : Nat := 86400

/-- Follows a log while nothing else happens. -/
def follow (s : Session) (raw : String) (since : Nat) : Option Report × Session :=
  match readId raw with
  | .error failure => (some (.fail failure), s)
  | .ok id =>
    match s.use default fun b moment => firstLook b moment id since with
    | (.ended r, s) => (some r, s)
    | (.more lines seen, s) =>
      let look := fun (s : Session) seen => s.use default fun b moment => nextLook b moment id seen
      let (r, s) := followLoop look (fun _ s => s) maxLooks 1 s seen
      (r.map (·.after lines), s)

/-- Carries out a plan on the opened database; a new task gets the identifier.  There is no end if
what is asked for does not end. -/
def perform (p : Plan) (time : Time.ZonedTime) (freshId : TaskId) (w : Workplace) :
    Option ProgramEnd × Workplace :=
  match p.action with
  | .command c =>
    let (r, session) := w.session.use freshId c.perform
    (some (.reported r), { w with session })
  | .follow id since =>
    let (r, session) := follow w.session id since
    (r.map .reported, { w with session })
  | .run _ =>
    let (r, w) := w.work p.config.runnerConfig time
    (r.map .reported, w)

end Plan

/-- A computer on which the program runs: what it finds there, and what the clock shows next. -/
structure Computer where
  surroundings : Config.Surroundings
  reading : Time.Instant

namespace Computer

def withFiles (c : Computer) (files : Files.Tree) : Computer :=
  { c with surroundings := { c.surroundings with files } }

/-- Carries out a plan on an opened database, which is kept afterwards. -/
def perform (c : Computer) (p : Plan) (time : Time.ZonedTime) (freshId : TaskId)
    (o : Store.Opened) : Option ProgramEnd × Computer :=
  let files := o.companions.foldl (fun t place => t.put place (.file [])) c.surroundings.files
  let session : Session := .start o.backend c.reading
  let (e, w) := p.perform time freshId
    ⟨session, ⟨c.surroundings.env, files, c.surroundings.directory⟩⟩
  let files := o.companions.foldl Files.Tree.remove w.surroundings.files
  (e, { c with reading := w.session.reading }.withFiles (o.save w.session.backend files))

/-- Runs the program with arguments; a new task gets the identifier. -/
def run (c : Computer) (time : Time.ZonedTime) (freshId : TaskId) (args : List String) :
    Option ProgramEnd × Computer :=
  match Plan.ofArguments c.surroundings args with
  | .error e => (some e, c)
  | .ok p =>
    let (opened?, files) := p.target.open c.surroundings.files c.surroundings.directory
    let c := c.withFiles files
    match opened? with
    | none => (some p.cannotOpen, c)
    | some o => c.perform p time freshId o

end Computer

end TaskQueue.Cli
