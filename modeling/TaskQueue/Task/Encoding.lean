import TaskQueue.Json.Decoder
import TaskQueue.Task.Basic
import TaskQueue.Time.Reader
import TaskQueue.Time.Written

/-!
# Tasks in JSON

Each record of the queue is an object with its fields in a fixed order.  The parts of a result and
of a patch have defaults; the parts of a task must all be there, the group apart.
-/

namespace TaskQueue

open Json (Decoder)
open Log (counterBound)

namespace TaskId

def decoder : Decoder TaskId :=
  .parsed ofText?

end TaskId

namespace Status

def decoder : Decoder Status := fun limit d =>
  (Decoder.caseName limit d).bind ofName?

end Status

namespace TaskResult

def encode (r : TaskResult) : Json :=
  .object
    [("logs", .texts r.logs), ("seq", .nat r.seq), ("output", .text r.output),
     ("provider_ref", .ofText? r.providerRef), ("message", .ofText? r.message),
     ("extra", r.extra.toJson)]

def decoder : Decoder TaskResult := fun limit d => do
  let (limit, r) ←
    Decoder.record ["logs", "seq", "output", "provider_ref", "message", "extra"] limit d
  some
    { logs := ← r.defaulted limit 0 "logs" (.list .text) []
      seq := ← r.defaulted limit 1 "seq" (.natBelow counterBound) 0
      output := ← r.defaulted limit 2 "output" .text ""
      providerRef := ← r.defaulted limit 3 "provider_ref" (.optional .text) none
      message := ← r.defaulted limit 4 "message" (.optional .text) none
      extra := ← r.defaulted limit 5 "extra" .object .empty }

end TaskResult

namespace MessageEdit

/-- The message as a value; null where no message is set. -/
def encode : MessageEdit → Json
  | .keep => .null
  | .clear => .null
  | .set message => .text message

def ofOption : Option String → MessageEdit
  | none => .keep
  | some message => .set message

end MessageEdit

namespace ResultPatch

def encode (p : ResultPatch) : Json :=
  .object
    [("logs", (p.logs.map Json.texts).getD .null), ("seq", (p.seq.map Json.nat).getD .null),
     ("output", .ofText? p.output), ("provider_ref", .ofText? p.providerRef),
     ("message", p.message.encode), ("extra", p.extra.toJson)]

def decoder : Decoder ResultPatch := fun limit d => do
  let (limit, r) ←
    Decoder.record ["logs", "seq", "output", "provider_ref", "message", "extra"] limit d
  some
    { logs := ← r.defaulted limit 0 "logs" (.optional (.list .text)) none
      seq := ← r.defaulted limit 1 "seq" (.optional (.natBelow counterBound)) none
      output := ← r.defaulted limit 2 "output" (.optional .text) none
      providerRef := ← r.defaulted limit 3 "provider_ref" (.optional .text) none
      message := .ofOption (← r.defaulted limit 4 "message" (.optional .text) none)
      extra := ← r.defaulted limit 5 "extra" .object .empty }

end ResultPatch

def instantDecoder : Decoder Time.Instant :=
  .parsed fun s => (Time.lenient? s).map (·.instant)

namespace Task

def encode (t : Task) : Json :=
  .object
    [("id", .text t.id.text), ("group_id", .ofText? t.group), ("event_type", .text t.eventType),
     ("status", .text t.status.name), ("archived", .bool t.archived), ("payload", t.payload),
     ("retries", .int t.retries), ("result", t.result.encode),
     ("created_at", .text t.createdAt.text), ("updated_at", .text t.updatedAt.text)]

def decoder : Decoder Task := fun limit d => do
  let (limit, r) ←
    Decoder.record
      ["id", "group_id", "event_type", "status", "archived", "payload", "retries", "result",
       "created_at", "updated_at"] limit d
  some
    { id := ← r.required limit 0 "id" TaskId.decoder
      group := ← r.nullable limit 1 "group_id" .text
      eventType := ← r.required limit 2 "event_type" .text
      status := ← r.required limit 3 "status" Status.decoder
      archived := ← r.required limit 4 "archived" .bool
      payload := ← r.required limit 5 "payload" .value
      retries := ← r.required limit 6 "retries" (.intIn (-retryBound) retryBound)
      result := ← r.required limit 7 "result" TaskResult.decoder
      createdAt := ← r.required limit 8 "created_at" instantDecoder
      updatedAt := ← r.required limit 9 "updated_at" instantDecoder }

end Task

namespace NewTask

def encode (t : NewTask) : Json :=
  .object
    [("group_id", .ofText? t.group), ("event_type", .text t.eventType), ("payload", t.payload)]

def decoder : Decoder NewTask := fun limit d => do
  let (limit, r) ← Decoder.record ["group_id", "event_type", "payload"] limit d
  some
    { group := ← r.nullable limit 0 "group_id" .text
      eventType := ← r.required limit 1 "event_type" .text
      payload := ← r.required limit 2 "payload" .value }

end NewTask

namespace ControlState

def encode (c : ControlState) : Json :=
  .object [("status", .text c.status.name), ("archived", .bool c.archived)]

def decoder : Decoder ControlState := fun limit d => do
  let (limit, r) ← Decoder.record ["status", "archived"] limit d
  some
    { status := ← r.required limit 0 "status" Status.decoder
      archived := ← r.required limit 1 "archived" .bool }

end ControlState

end TaskQueue
