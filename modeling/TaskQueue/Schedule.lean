import TaskQueue.Json.Decoder
import TaskQueue.Task.Encoding

/-!
# Schedule windows

The payload of a task may say, under the key `schedule`, at which hours of the day the task may
start.  A window that ends at or before its start runs past midnight, and one that starts and ends
at the same hour is open all day.  A payload without a readable window does not restrict the task.
-/

namespace TaskQueue

open Json (Decoder)

/-- Who asked for the window. -/
inductive ScheduleSource where
  | robot
  | trigger
  | chat
  | other
  deriving DecidableEq, Repr, Inhabited

namespace ScheduleSource

def name : ScheduleSource → String
  | .robot => "robot"
  | .trigger => "trigger"
  | .chat => "chat"
  | .other => "other"

/-- The source with the given name; unknown names all stand for `other`. -/
def ofName (s : String) : ScheduleSource :=
  if s = "robot" then .robot
  else if s = "trigger" then .trigger
  else if s = "chat" then .chat
  else .other

def decoder : Decoder ScheduleSource := fun limit d =>
  (Decoder.caseName limit d).map ofName

end ScheduleSource

structure Schedule where
  source : Option ScheduleSource
  startHour : Nat
  endHour : Nat
  overridden : Bool
  overriddenAt : Option Time.Instant
  dedupRule : Option String
  deriving DecidableEq, Repr, Inhabited

def hoursPerDay : Nat := 24

namespace Schedule

def window (startHour endHour : Nat) : Schedule :=
  ⟨none, startHour, endHour, false, none, none⟩

def withSource (s : Schedule) (source : ScheduleSource) : Schedule :=
  { s with source := some source }

def overrideAt (s : Schedule) (t : Time.Instant) : Schedule :=
  { s with overridden := true, overriddenAt := some t }

def inRange (s : Schedule) : Bool :=
  s.startHour < hoursPerDay ∧ s.endHour < hoursPerDay

def isOpen (s : Schedule) (hour : Nat) : Bool :=
  if s.overridden then true
  else if s.startHour = s.endHour then true
  else if s.startHour < s.endHour then s.startHour ≤ hour ∧ hour < s.endHour
  else s.startHour ≤ hour ∨ hour < s.endHour

def given (name : String) : Option Json → Json.Fields
  | none => []
  | some v => [(name, v)]

/-- The schedule as an object; optional parts that are missing are left out. -/
def encode (s : Schedule) : Json :=
  .object
    (given "source" (s.source.map fun source => .text source.name) ++
      [("startHour", .nat s.startHour), ("endHour", .nat s.endHour),
       ("override", .bool s.overridden)] ++
      given "overrideAt" (s.overriddenAt.map fun t => .text t.text) ++
      given "dedupRuleId" (s.dedupRule.map .text))

def decoder : Decoder Schedule := fun limit d => do
  let (limit, r) ←
    Decoder.record
      ["source", "startHour", "endHour", "override", "overrideAt", "dedupRuleId"] limit d
  some
    { source := ← r.defaulted limit 0 "source" (.optional ScheduleSource.decoder) none
      startHour := ← r.required limit 1 "startHour" (.natBelow (2 ^ (32 : Nat)))
      endHour := ← r.required limit 2 "endHour" (.natBelow (2 ^ (32 : Nat)))
      overridden := ← r.defaulted limit 3 "override" .bool false
      overriddenAt := ← r.defaulted limit 4 "overrideAt" (.optional instantDecoder) none
      dedupRule := ← r.defaulted limit 5 "dedupRuleId" (.optional .text) none }

/-- The key under which a payload holds its schedule. -/
def key : String := "schedule"

inductive Reading where
  | absent
  | found (s : Schedule)
  | outOfRange (startHour endHour : Nat)
  | malformed
  deriving DecidableEq, Repr

def read (payload : Json) : Reading :=
  match payload.get? key with
  | none => .absent
  | some .null => .absent
  | some v =>
    match decoder.ofValue? v with
    | none => .malformed
    | some s => if s.inRange then .found s else .outOfRange s.startHour s.endHour

def ofPayload? (payload : Json) : Option Schedule :=
  match read payload with
  | .found s => some s
  | _ => none

/-- Whether a task with this payload may start when the clock shows the given hour. -/
def admits (payload : Json) (hour : Nat) : Bool :=
  (ofPayload? payload).all (·.isOpen hour)

end Schedule

end TaskQueue
