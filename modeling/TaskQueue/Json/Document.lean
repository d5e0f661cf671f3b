import TaskQueue.Json.Token
import TaskQueue.Json.Value

/-!
# JSON documents

A document is a JSON text as it stands: members in order, keys that come twice, numbers that are
too large and texts that are no Unicode.  `Document.parse?` accepts exactly the texts of the JSON
grammar, however deep; `Document.value?` is the value of a document, none if it nests too deep or
holds a number or a text without a value.
-/

namespace TaskQueue.Json

inductive Document where
  | null
  | bool (b : Bool)
  | number (n : Option Number)
  | text (s : Option String)
  | array (items : List Document)
  | object (fields : List (Option String × Document))
  deriving Repr, Inhabited

namespace Document

/-- A container whose end has not been read yet, with what it holds so far, newest first. -/
inductive Frame where
  | array (items : List Document)
  | object (fields : List (Option String × Document)) (key : Option String)

/-- What may come next. -/
inductive Expecting where
  | value
  | firstItem
  | firstKey (fields : List (Option String × Document))
  | key (fields : List (Option String × Document))
  | colon (fields : List (Option String × Document)) (key : Option String)
  | separator
  | nothing (whole : Document)

/-- A reader of tokens: the open containers, the innermost first, and what may come next. -/
structure Reader where
  stack : List Frame
  expecting : Expecting

namespace Reader

def accept (stack : List Frame) (v : Document) : Reader :=
  match stack with
  | [] => ⟨[], .nothing v⟩
  | .array items :: rest => ⟨.array (v :: items) :: rest, .separator⟩
  | .object fields key :: rest => ⟨.object ((key, v) :: fields) none :: rest, .separator⟩

def openValue (stack : List Frame) : Token → Option Reader
  | .null => some (accept stack .null)
  | .bool b => some (accept stack (.bool b))
  | .number n => some (accept stack (.number n))
  | .text s => some (accept stack (.text s))
  | .openArray => some ⟨.array [] :: stack, .firstItem⟩
  | .openObject => some ⟨stack, .firstKey []⟩
  | _ => none

def step (r : Reader) (t : Token) : Option Reader :=
  match r.expecting with
  | .value => openValue r.stack t
  | .firstItem =>
    match r.stack, t with
    | .array items :: rest, .closeArray => some (accept rest (.array items.reverse))
    | stack, t => openValue stack t
  | .firstKey fields =>
    match t with
    | .closeObject => some (accept r.stack (.object fields.reverse))
    | .text key => some ⟨r.stack, .colon fields key⟩
    | _ => none
  | .key fields =>
    match t with
    | .text key => some ⟨r.stack, .colon fields key⟩
    | _ => none
  | .colon fields key =>
    match t with
    | .colon => some ⟨.object fields key :: r.stack, .value⟩
    | _ => none
  | .separator =>
    match r.stack, t with
    | .array items :: rest, .comma => some ⟨.array items :: rest, .value⟩
    | .array items :: rest, .closeArray => some (accept rest (.array items.reverse))
    | .object fields _ :: rest, .comma => some ⟨rest, .key fields⟩
    | .object fields _ :: rest, .closeObject => some (accept rest (.object fields.reverse))
    | _, _ => none
  | .nothing _ => none

def run (r : Reader) : List Token → Option Reader
  | [] => some r
  | t :: ts => (r.step t).bind fun next => run next ts

/-- The document read, if it is complete. -/
def whole? (r : Reader) : Option Document :=
  match r.expecting with
  | .nothing v => some v
  | _ => none

end Reader

def ofTokens? (tokens : List Token) : Option Document :=
  ((Reader.mk [] .value).run tokens).bind Reader.whole?

def parse? (s : String) : Option Document :=
  (Token.scan? s.toList).bind ofTokens?

mutual

/-- The value of a document that nests at most `limit` containers deep.  Members come sorted by
key, and of members with one key the last one counts. -/
def value? (limit : Nat) : Document → Option Json
  | .null => some .null
  | .bool b => some (.bool b)
  | .number n => n.map .number
  | .text s => s.map .text
  | .array items =>
    match limit with
    | 0 => none
    | limit + 1 => (values? limit items).map .array
  | .object fields =>
    match limit with
    | 0 => none
    | limit + 1 => (members? limit fields).map fun fs => .object (Fields.sorted fs)

def values? (limit : Nat) : List Document → Option (List Json)
  | [] => some []
  | d :: rest => do
    let v ← value? limit d
    let vs ← values? limit rest
    some (v :: vs)

def members? (limit : Nat) : List (Option String × Document) → Option Fields
  | [] => some []
  | (key, d) :: rest => do
    let k ← key
    let v ← value? limit d
    let vs ← members? limit rest
    some ((k, v) :: vs)

end

mutual

def ofValue : Json → Document
  | .null => .null
  | .bool b => .bool b
  | .number n => .number (some n)
  | .text s => .text (some s)
  | .array items => .array (ofItems items)
  | .object fields => .object (ofFields fields)

def ofItems : List Json → List Document
  | [] => []
  | v :: rest => ofValue v :: ofItems rest

def ofFields : List (String × Json) → List (Option String × Document)
  | [] => []
  | (k, v) :: rest => (some k, ofValue v) :: ofFields rest

end

end Document

/-- The number of containers that may be open at once in a text. -/
def maxNesting : Nat := 127

def parse? (s : String) : Option Json :=
  (Document.parse? s).bind (Document.value? maxNesting)

end TaskQueue.Json
