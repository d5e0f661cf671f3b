import TaskQueue.Config.Engine
import TaskQueue.Config.Toml.Table

/-!
# The configuration in a TOML document

Settings that a document does not give keep their defaults, and settings without a meaning are
passed over.
-/

namespace TaskQueue.Config

open Toml (Value Entries)

/-- The settings of a section: by name, or one after the other in an array.  A time counts as a
section without settings. -/
inductive Section where
  | named (entries : Entries)
  | positional (items : List Value)

namespace Section

def ofValue? : Value → Option Section
  | .table _ entries => some (.named entries)
  | .inline entries => some (.named entries)
  | .tables newestFirst => some (.positional (newestFirst.reverse.map (.table .stated)))
  | .array items => some (.positional items)
  | .time => some (.named [])
  | _ => none

def get? (s : Section) (position : Nat) (name : String) : Option Value :=
  match s with
  | .named entries => entries.get? name
  | .positional items => items[position]?

/-- A setting that the given function reads, or its default. -/
def setting (s : Section) (position : Nat) (name : String) (read : Value → Option α) (default : α) :
    Option α :=
  match s.get? position name with
  | some v => read v
  | none => some default

end Section

def natOf? : Value → Option Nat
  | .integer (.ofNat n) => some n
  | _ => none

def textOf? : Value → Option String
  | .text s => some s
  | _ => none

def databaseUrlOf? (v : Value) : Option String :=
  (Section.ofValue? v).bind fun s => s.setting 0 "url" textOf? EngineConfig.standard.databaseUrl

def runnerSectionOf? (v : Value) : Option RunnerSection := do
  let s ← Section.ofValue? v
  let d := RunnerSection.standard
  some
    { scanLimit := ← s.setting 0 "scan_limit" natOf? d.scanLimit
      controlPollMs := ← s.setting 1 "control_poll_interval_ms" natOf? d.controlPollMs
      baseDelayMs := ← s.setting 2 "finalize_base_delay_ms" natOf? d.baseDelayMs
      maxDelayMs := ← s.setting 3 "finalize_max_delay_ms" natOf? d.maxDelayMs
      logIntervalSecs := ← s.setting 4 "finalize_log_interval_secs" natOf? d.logIntervalSecs
      logWindow := ← s.setting 5 "log_window" natOf? d.logWindow
      triggerIntervalSecs := ← s.setting 6 "trigger_interval_secs" natOf? d.triggerIntervalSecs
      name := ← s.setting 7 "name" (fun v => (textOf? v).map some) none }

def EngineConfig.ofEntries? (entries : Entries) : Option EngineConfig := do
  let s := Section.named entries
  some
    { databaseUrl := ← s.setting 0 "database" databaseUrlOf? standard.databaseUrl
      runner := ← s.setting 1 "runner" runnerSectionOf? .standard }

def EngineConfig.ofToml? (text : String) : Option EngineConfig :=
  (Toml.parse? text).bind ofEntries?

end TaskQueue.Config
