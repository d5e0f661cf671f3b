import TaskQueue.Json.Document
import TaskQueue.Json.Object

/-!
# Reading records from documents

A decoder reads a thing from a document, given how many containers may still be opened.  A record
is written as an object, in which unknown members are passed over and no known one may come twice,
or as an array of its fields in order.  `Decoder.ofText?` reads from a text, `Decoder.ofValue?`
from a value.
-/

namespace TaskQueue.Json

/-- A reader of things of type `α`. -/
abbrev Decoder (α : Type) := Nat → Document → Option α

namespace Decoder

def ofText? (decode : Decoder α) (s : String) : Option α :=
  (Document.parse? s).bind (decode maxNesting)

/-- Reads a thing from a value, however deep. -/
def ofValue? (decode : Decoder α) (v : Json) : Option α :=
  decode v.height (Document.ofValue v)

def text : Decoder String
  | _, .text s => s
  | _, _ => none

def bool : Decoder Bool
  | _, .bool b => some b
  | _, _ => none

def natBelow (bound : Nat) : Decoder Nat
  | _, .number n => n.bind (Number.natBelow? bound)
  | _, _ => none

def intIn (low high : Int) : Decoder Int
  | _, .number n => n.bind (Number.intIn? low high)
  | _, _ => none

def value : Decoder Json :=
  Document.value?

def optional (decode : Decoder α) : Decoder (Option α)
  | _, .null => some none
  | limit, d => (decode limit d).map some

def parsed (read : String → Option α) : Decoder α :=
  fun limit d => (text limit d).bind read

def list (decode : Decoder α) : Decoder (List α)
  | limit + 1, .array items => items.mapM (decode limit)
  | _, _ => none

def object : Decoder Object
  | limit, .object members =>
    match Document.value? limit (.object members) with
    | some (.object fields) => some (.ofFields fields)
    | _ => none
  | _, _ => none

/-- The name of a case without data: the bare name, or an object with the name as its only key and
null as its value. -/
def caseName : Decoder String
  | _, .text s => s
  | _ + 1, .object [(key, .null)] => key
  | _, _ => none

/-- The fields of a record as they are written: by name, or by position. -/
inductive Record where
  | named (members : List (Option String × Document))
  | positional (items : List Document)

def membersNamed (key : String) (members : List (Option String × Document)) : List Document :=
  members.filterMap fun p => if p.1 = some key then some p.2 else none

/-- Reads the frame of a record with the given field names: every key is a text, no known key comes
twice, and an array has no more items than there are fields. -/
def record (names : List String) : Nat → Document → Option (Nat × Record)
  | limit + 1, .object members =>
    if members.all (·.1.isSome) ∧ names.all (fun n => (membersNamed n members).length ≤ 1) then
      some (limit, .named members)
    else none
  | limit + 1, .array items =>
    if items.length ≤ names.length then some (limit, .positional items) else none
  | _, _ => none

namespace Record

def get? (r : Record) (position : Nat) (name : String) : Option Document :=
  match r with
  | .named members => (membersNamed name members).head?
  | .positional items => items[position]?

def required (r : Record) (limit position : Nat) (name : String) (decode : Decoder α) : Option α :=
  (r.get? position name).bind (decode limit)

/-- An optional field, which may be left out where fields have names. -/
def nullable (r : Record) (limit position : Nat) (name : String) (decode : Decoder α) :
    Option (Option α) :=
  match r, r.get? position name with
  | _, some d => optional decode limit d
  | .named _, none => some none
  | .positional _, none => none

def defaulted (r : Record) (limit position : Nat) (name : String) (decode : Decoder α)
    (default : α) : Option α :=
  match r.get? position name with
  | some d => decode limit d
  | none => some default

end Record

end Decoder

end TaskQueue.Json
