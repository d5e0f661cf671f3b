import Std.Time
import TaskQueue.Cli.Program

/-!
# The executable

Reads the arguments, the environment and the files, runs the program, and writes what it has to say.
-/

namespace TaskQueue.Executable

open Cli (Plan ProgramEnd Workplace)
open Files (Entry Place Tree)

/-- The content of a file, none if it cannot be read. -/
def read? (path : String) : IO (Option Bytes) := do
  match ← (IO.FS.readBinFile path).toBaseIO with
  | .ok content => return some content.data.toList
  | .error _ => return none

/-- Writes a file, and tells whether that was possible. -/
def write (path : String) (content : Bytes) : IO Bool := do
  match ← (IO.FS.writeBinFile path ⟨content.toArray⟩).toBaseIO with
  | .ok () => return true
  | .error _ => return false

def environment : IO Config.Environment := do
  let entries := ((Bytes.text? ((← read? "/proc/self/environ").getD [])).getD "").toList
  return (entries.splitOn '\x00').filterMap fun entry =>
    let name := entry.takeWhile (· ≠ '=')
    if name = [] then none
    else some (String.ofList name, String.ofList (entry.drop (name.length + 1)))

/-- The place of a path from a directory, by its names alone. -/
def placeIn? (directory : Place) (path : Bytes) : Option Place :=
  Store.placeOf? .empty directory path

def pathOf (place : Place) : String :=
  "/" ++ "/".intercalate (place.map fun name => (Bytes.text? name).getD "")

/-- Where the program finds itself, with those of the given files that exist. -/
def surroundings (paths : List String) : IO Config.Surroundings := do
  let env ← environment
  let directory := Files.placeOf (← IO.currentDir).toString
  let paths := paths ++ Config.searchPaths env ++ (env.get? Config.fileVariable).toList
  let entries ← paths.filterMapM fun path => do
    let content? ← read? path
    return content?.bind fun content =>
      (placeIn? directory (Bytes.ofString path)).map fun place => (place, Entry.file content)
  return ⟨env, ⟨(directory, .directory) :: entries⟩, directory, Config.searchPaths env⟩

def now : IO Time.ZonedTime := do
  let t ← Std.Time.Timestamp.now
  let nanos := t.toNanosecondsSinceUnixEpoch.val
  let rules ← Std.Time.Database.defaultGetLocalZoneRules
  return ⟨⟨nanos / 10 ^ (9 : Nat), (nanos % 10 ^ (9 : Nat)).toNat⟩,
    (rules.timezoneAt t).offset.second.val⟩

/-- A random identifier of version 4. -/
def freshId : IO TaskId := do
  let bytes ← IO.getRandomBytes 16
  let n := bytes.data.foldl (fun n b => 256 * n + b.toNat) 0
  let n := n / 2 ^ (80 : Nat) * 2 ^ (80 : Nat) + 4 * 2 ^ (76 : Nat) + n % 2 ^ (76 : Nat)
  let n := n / 2 ^ (64 : Nat) * 2 ^ (64 : Nat) + 2 * 2 ^ (62 : Nat) + n % 2 ^ (62 : Nat)
  return ⟨BitVec.ofNat 128 n⟩

def databaseFiles (p : Plan) (directory : Place) : IO Tree := do
  match p.target with
  | .file path _ =>
    match placeIn? directory path with
    | some place =>
      let content? ← read? (pathOf place)
      return ⟨(place.dropLast, .directory) :: (content?.map fun c => (place, Entry.file c)).toList⟩
    | none => return .empty
  | _ => return .empty

/-- Writes the file of a database as it is in the files. -/
def keep (o : Store.Opened) (files : Tree) : IO Bool := do
  match o.home with
  | some (place, _) =>
    match files.find? place with
    | some (.file content) => write (pathOf place) content
    | _ => return false
  | none => return true

/-- Does something with the database at this time; nothing is done if it cannot be opened. -/
def withSession (p : Plan) (directory : Place)
    (f : Time.ZonedTime → Store.Session → α × Store.Session) : IO (Option α) := do
  let (opened?, files) := p.target.open (← databaseFiles p directory) directory
  match opened? with
  | none => return none
  | some o =>
    if o.writes then
      unless ← keep o files do return none
    let time ← now
    let (a, s) := f time (.start o.backend time.instant)
    if o.writes then
      unless ← keep o (o.save s.backend files) do return none
    return some a

def conclude (e : ProgramEnd) : IO UInt32 := do
  IO.print e.stdout
  match e.errorText? with
  | some text => IO.eprintln text
  | none => if e = .refused then IO.eprint Cli.helpText
  return UInt32.ofNat e.exitCode

def perform (p : Plan) (s : Config.Surroundings) : IO ProgramEnd := do
  let id ← freshId
  let e? ← withSession p s.directory fun time session =>
    let (e, w) := p.perform time id ⟨session, ⟨s.env, s.files, s.directory⟩⟩
    (e, w.session)
  return (e?.getD (some p.cannotOpen)).getD (.printed "")

/-- Follows a log: prints what is new, and looks again after a while. -/
def follow (p : Plan) (directory : Place) (id : TaskId) (since : Nat) : IO ProgramEnd := do
  let mut first := true
  let mut seen := since
  repeat
    let start := first
    let known := seen
    let look? ← withSession p directory fun _ session => session.use default fun b moment =>
      if start then Cli.firstLook b moment id known else Cli.nextLook b moment id known
    match look? with
    | none => return p.cannotOpen
    | some (.ended r) => return .reported r
    | some (.more lines next) =>
      for line in lines do IO.println line
      (← IO.getStdout).flush
      seen := next
      first := false
      IO.sleep (UInt32.ofNat Cli.followInterval)
  return .printed ""

def workOn (p : Plan) (s : Config.Surroundings) : IO ProgramEnd := do
  repeat
    let e ← perform p s
    if e.exitCode ≠ 0 then return e
    IO.sleep (UInt32.ofNat p.config.triggerInterval.millis)
  return .printed ""

def run (args : List String) : IO ProgramEnd := do
  let asked :=
    match Cli.Orders.ofArguments args with
    | .ok o => o.config.toList
    | .error _ => []
  let s ← surroundings asked
  match Plan.ofArguments s args with
  | .error e => return e
  | .ok p =>
    match p.action with
    | .follow raw since =>
      match Cli.readId raw with
      | .ok id => follow p s.directory id since
      | .error failure => return .ofFailure failure
    | .run false => workOn p s
    | _ => perform p s

end TaskQueue.Executable

def main (args : List String) : IO UInt32 := do
  TaskQueue.Executable.conclude (← TaskQueue.Executable.run args)
