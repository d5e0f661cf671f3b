import TaskQueue.Config.Environment
import TaskQueue.Config.Settings
import TaskQueue.Files.Tree

/-!
# Finding and loading the configuration

The configuration is read from the file that is asked for, from the file that a variable of the
environment names, or from the first file of the search paths.
-/

namespace TaskQueue.Config

open Files (Tree)

inductive ConfigError where
  | notFound
  | unreadable
  | malformed
  | substitution (detail : String)
  | unsupported (extension : String)
  | invalid (flaw : Runner.Flaw)
  deriving DecidableEq, Repr

/-- The text of an error; what the system has to say is left out. -/
def ConfigError.message : ConfigError → String
  | .notFound => "Configuration file not found in any search location"
  | .unreadable => "Failed to read configuration file"
  | .malformed => "Failed to parse TOML configuration"
  | .substitution detail => s!"Environment variable substitution failed: {detail}"
  | .unsupported extension => s!"Unsupported configuration file format: {extension}"
  | .invalid flaw => s!"Configuration validation failed: {flaw.message}"

def fileVariable : String := "TASKMILL_CONFIG"

def userDirectory? (env : Environment) : Option String :=
  match env.get? "XDG_CONFIG_HOME" with
  | some path =>
    if path.toList.head? = some '/' then some path else home?
  | none => home?
where
  home? : Option String :=
    (env.get? "HOME").bind fun home =>
      if home = "" then none else some (Files.join home ".config")

def searchPaths (env : Environment) : List String :=
  ["./taskmill.toml"] ++
    ((userDirectory? env).map fun path => Files.join path "taskmill/config.toml").toList ++
    ["/etc/taskmill/config.toml"]

/-- What a program finds when it looks for its configuration. -/
structure Surroundings where
  env : Environment
  files : Tree
  directory : Files.Place
  searchPaths : List String

namespace Surroundings

def find? (s : Surroundings) : Option String :=
  s.searchPaths.find? fun path => s.files.isFile s.directory (Bytes.ofString path)

def read? (s : Surroundings) (path : String) : Option String :=
  (s.files.read s.directory (Bytes.ofString path)).toOption.bind Bytes.text?

/-- Reads, substitutes, parses and checks a configuration file, in this order. -/
def loadFile (s : Surroundings) (path : String) : Except ConfigError EngineConfig :=
  match s.read? path with
  | none => .error .unreadable
  | some content =>
    match substitute s.env content with
    | .error detail => .error (.substitution detail)
    | .ok content =>
      match Files.extension? path with
      | none => parsed content
      | some "toml" => parsed content
      | some extension => .error (.unsupported extension)
where
  parsed (content : String) : Except ConfigError EngineConfig :=
    match EngineConfig.ofToml? content with
    | none => .error .malformed
    | some c =>
      match c.flaw? with
      | some flaw => .error (.invalid flaw)
      | none => .ok c

def load (s : Surroundings) (asked : Option String) : Except ConfigError EngineConfig :=
  match asked.or ((s.env.get? fileVariable).or s.find?) with
  | none => .error .notFound
  | some path => s.loadFile path

/-- Loads the configuration, or takes the defaults if there is no file. -/
def loadOrDefault (s : Surroundings) (asked : Option String) : Except ConfigError EngineConfig :=
  match s.load asked with
  | .error .notFound => .ok .standard
  | r => r

end Surroundings

end TaskQueue.Config
