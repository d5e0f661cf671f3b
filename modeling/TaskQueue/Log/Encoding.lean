import TaskQueue.Json.Decoder
import TaskQueue.Log.Snapshot

/-!
# Log snapshots in JSON
-/

namespace TaskQueue.Log

open Json (Decoder)

namespace Snapshot

def encode (s : Snapshot) : Json :=
  .object [("lines", .texts s.lines), ("seq", .nat s.seq)]

def decoder : Decoder Snapshot := fun limit d => do
  let (limit, r) ← Decoder.record ["lines", "seq"] limit d
  some
    { lines := ← r.required limit 0 "lines" (.list .text)
      seq := ← r.required limit 1 "seq" (.natBelow counterBound) }

end Snapshot

end TaskQueue.Log
