import TaskQueue.Bytes
import TaskQueue.Store.Table

/-!
# Tables in files

The file of a database holds the rows of its table as JSON, after a byte that no text begins with
and a byte that tells how changes are logged.  `Saved.ofBytes?` reads back what `Saved.bytes` writes.
-/

namespace TaskQueue.Store

open Json (Decoder)

namespace Row

def encode (r : Row) : Json :=
  .object
    [("id", .text r.id), ("group", .ofText? r.group), ("event_type", .text r.eventType),
     ("status", .text r.status), ("archived", .bool r.archived), ("payload", .text r.payload),
     ("retries", .int r.retries), ("result", .text r.result), ("created_at", .text r.createdAt),
     ("updated_at", .text r.updatedAt)]

def members : List String :=
  ["id", "group", "event_type", "status", "archived", "payload", "retries", "result",
   "created_at", "updated_at"]

def decoder : Decoder Row := fun limit d => do
  let (limit, r) ← Decoder.record members limit d
  some
    { id := ← r.required limit 0 "id" .text
      group := ← r.nullable limit 1 "group" .text
      eventType := ← r.required limit 2 "event_type" .text
      status := ← r.required limit 3 "status" .text
      archived := ← r.required limit 4 "archived" .bool
      payload := ← r.required limit 5 "payload" .text
      retries := ← r.required limit 6 "retries" (.intIn (-(2 ^ (63 : Nat))) (2 ^ (63 : Nat)))
      result := ← r.required limit 7 "result" .text
      createdAt := ← r.required limit 8 "created_at" .text
      updatedAt := ← r.required limit 9 "updated_at" .text }

end Row

structure Saved where
  table : Table
  logged : Bool
  deriving DecidableEq, Repr, Inhabited

namespace Saved

def mark : UInt8 := 0xFF

def bytes (s : Saved) : Bytes :=
  mark :: (if s.logged then 2 else 1) ::
    Bytes.ofString (Json.array ((s.table.rows.getD []).map Row.encode)).compact

def ofBytes? : Bytes → Option Saved
  | m :: kind :: rest =>
    if m = mark ∧ (kind = 1 ∨ kind = 2) then
      (Bytes.text? rest).bind fun text =>
        ((Decoder.list Row.decoder).ofText? text).map fun rows => ⟨⟨some rows⟩, kind = 2⟩
    else none
  | _ => none

end Saved

end TaskQueue.Store
