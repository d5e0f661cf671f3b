import TaskQueue.Json.Decoder
import TaskQueue.Runner.Config
import TaskQueue.Text.Blank

/-!
# The configuration of the engine

Every setting has a default; `EngineConfig.flaw?` names the first setting that cannot be used.
-/

namespace TaskQueue

open Json (Decoder)
open Time (Duration)

namespace Config

structure RunnerSection where
  scanLimit : Nat
  controlPollMs : Nat
  baseDelayMs : Nat
  maxDelayMs : Nat
  logIntervalSecs : Nat
  logWindow : Nat
  triggerIntervalSecs : Nat
  name : Option String
  deriving DecidableEq, Repr

def RunnerSection.standard : RunnerSection :=
  ⟨50, 2000, 500, 30000, 30, 500, 10, none⟩

structure EngineConfig where
  databaseUrl : String
  runner : RunnerSection
  deriving DecidableEq, Repr

def runnerSettings : List String :=
  ["scan_limit", "control_poll_interval_ms", "finalize_base_delay_ms", "finalize_max_delay_ms",
   "finalize_log_interval_secs", "log_window", "trigger_interval_secs", "name"]

namespace RunnerSection

def encode (r : RunnerSection) : Json :=
  .object
    ([("scan_limit", .nat r.scanLimit), ("control_poll_interval_ms", .nat r.controlPollMs),
      ("finalize_base_delay_ms", .nat r.baseDelayMs),
      ("finalize_max_delay_ms", .nat r.maxDelayMs),
      ("finalize_log_interval_secs", .nat r.logIntervalSecs), ("log_window", .nat r.logWindow),
      ("trigger_interval_secs", .nat r.triggerIntervalSecs)] ++
      (match r.name with
        | none => []
        | some name => [("name", .text name)]))

def decoder : Decoder RunnerSection := fun limit d => do
  let (limit, r) ← Decoder.record runnerSettings limit d
  let count := Decoder.natBelow (2 ^ (64 : Nat))
  some
    { scanLimit := ← r.defaulted limit 0 "scan_limit" count standard.scanLimit
      controlPollMs :=
        ← r.defaulted limit 1 "control_poll_interval_ms" count standard.controlPollMs
      baseDelayMs := ← r.defaulted limit 2 "finalize_base_delay_ms" count standard.baseDelayMs
      maxDelayMs := ← r.defaulted limit 3 "finalize_max_delay_ms" count standard.maxDelayMs
      logIntervalSecs :=
        ← r.defaulted limit 4 "finalize_log_interval_secs" count standard.logIntervalSecs
      logWindow := ← r.defaulted limit 5 "log_window" count standard.logWindow
      triggerIntervalSecs :=
        ← r.defaulted limit 6 "trigger_interval_secs" count standard.triggerIntervalSecs
      name := ← r.defaulted limit 7 "name" (.optional .text) none }

end RunnerSection

namespace EngineConfig

def standard : EngineConfig :=
  ⟨"sqlite://taskmill.db", .standard⟩

def encode (c : EngineConfig) : Json :=
  .object
    [("database", .object [("url", .text c.databaseUrl)]), ("runner", c.runner.encode)]

def databaseDecoder : Decoder String := fun limit d => do
  let (limit, r) ← Decoder.record ["url"] limit d
  r.defaulted limit 0 "url" .text standard.databaseUrl

def decoder : Decoder EngineConfig := fun limit d => do
  let (limit, r) ← Decoder.record ["database", "runner"] limit d
  some
    { databaseUrl := ← r.defaulted limit 0 "database" databaseDecoder standard.databaseUrl
      runner := ← r.defaulted limit 1 "runner" RunnerSection.decoder .standard }

def runnerConfig (c : EngineConfig) : Runner.Config where
  scanLimit := c.runner.scanLimit
  pollInterval := .ofMillis c.runner.controlPollMs
  retry :=
    { baseDelay := .ofMillis c.runner.baseDelayMs
      maxDelay := .ofMillis c.runner.maxDelayMs
      logInterval := .ofSeconds c.runner.logIntervalSecs }
  logWindow := c.runner.logWindow
  name := c.runner.name

def triggerInterval (c : EngineConfig) : Duration :=
  .ofSeconds c.runner.triggerIntervalSecs

def flaw? (c : EngineConfig) : Option Runner.Flaw :=
  if Text.trim c.databaseUrl = "" then some .emptyDatabaseUrl
  else if c.runner.triggerIntervalSecs = 0 then some (.zeroInterval "trigger_interval_secs")
  else c.runnerConfig.flaw?

end EngineConfig

end Config

end TaskQueue
