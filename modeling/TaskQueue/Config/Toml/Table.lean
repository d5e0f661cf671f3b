import TaskQueue.Config.Toml.Scalar

/-!
# TOML documents

`parse?` reads a text line by line: a header opens a table, a key with a value adds to the open
table.  A key is given at most once, a table has at most one header, and a dotted key adds only to
tables that dotted keys have made.
-/

namespace TaskQueue.Config.Toml

open Text (Front)

/-- Adds a value under a dotted key to a table; `origin` is how this table came about when it was
itself reached by a dotted key. -/
def assign (value : Value) : List String → Option Origin → Entries → Option Entries
  | [], _, _ => none
  | [k], origin, entries =>
    if origin.all (· = .dotted) ∧ (entries.get? k).isNone then some (entries.set k value) else none
  | k :: more, _, entries =>
    match entries.get? k with
    | none => (assign value more (some .dotted) []).map fun es => entries.set k (.table .dotted es)
    | some (.table .stated _) => none
    | some (.table origin es) =>
      (assign value more (some origin) es).map fun es => entries.set k (.table origin es)
    | some (.tables (last :: before)) =>
      (assign value more (some .stated) last).map fun last =>
        entries.set k (.tables (last :: before))
    | _ => none

/-- Changes the table at the end of a path, making the tables on the way that do not exist. -/
def descend (f : Entries → Option Entries) : List String → Entries → Option Entries
  | [], entries => f entries
  | k :: path, entries =>
    match entries.get? k with
    | none => (descend f path []).map fun es => entries.set k (.table .implied es)
    | some (.table origin es) =>
      (descend f path es).map fun es => entries.set k (.table origin es)
    | some (.tables (last :: before)) =>
      (descend f path last).map fun last => entries.set k (.tables (last :: before))
    | _ => none

def openTable (k : String) (entries : Entries) : Option Entries :=
  match entries.get? k with
  | none => some (entries.set k (.table .stated []))
  | some (.table .implied es) => some (entries.set k (.table .stated es))
  | _ => none

def openNext (k : String) (entries : Entries) : Option Entries :=
  match entries.get? k with
  | none => some (entries.set k (.tables [[]]))
  | some (.tables before) => some (entries.set k (.tables ([] :: before)))
  | _ => none

/-- The items of an array, up to its end. -/
def items (item : Front Value) : Nat → Front (List Value)
  | 0, _ => none
  | fuel + 1, cs =>
    match skipAll cs with
    | ']' :: rest => some ([], rest)
    | cs => do
      let (v, cs) ← item cs
      match skipAll cs with
      | ',' :: rest =>
        let (vs, rest) ← items item fuel rest
        some (v :: vs, rest)
      | ']' :: rest => some ([v], rest)
      | _ => none

def keyValue (item : Front Value) : Front (List String × Value) := fun cs => do
  let (path, cs) ← key cs
  match cs with
  | '=' :: rest =>
    let (v, rest) ← item (skipGap rest)
    some ((path, v), rest)
  | _ => none

/-- The entries of a table between braces, up to its end. -/
def inlineEntries (item : Front Value) : Nat → Entries → Front Entries
  | 0, _, _ => none
  | fuel + 1, entries, cs => do
    let ((path, v), cs) ← keyValue item cs
    let entries ← assign v path none entries
    match skipGap cs with
    | ',' :: rest => inlineEntries item fuel entries rest
    | '\x7d' :: rest => some (entries, rest)
    | _ => none

/-- A table between braces, after the opening one. -/
def inlineTable (item : Front Value) : Front Value := fun cs =>
  match skipGap cs with
  | '\x7d' :: rest => some (.inline [], rest)
  | _ => (inlineEntries item (cs.length + 1) [] cs).map fun (es, rest) => (.inline es, rest)

/-- A value that nests at most `depth` arrays and tables. -/
def value : Nat → Front Value
  | 0, _ => none
  | depth + 1, cs =>
    match cs with
    | '[' :: rest =>
      (items (value depth) (rest.length + 1) rest).map fun (vs, rest) => (.array vs, rest)
    | '\x7b' :: rest => inlineTable (value depth) rest
    | _ => scalar cs

/-- A document in the making: all tables, and the path of the open one. -/
structure Draft where
  root : Entries
  path : List String

/-- The path in a header, after its opening brackets. -/
def headerPath (close : List Char) : Front (List String) := fun cs => do
  let (path, cs) ← key cs
  let ((), cs) ← word close cs
  let ((), cs) ← lineEnd cs
  some (path, cs)

namespace Draft

def openAt (d : Draft) (path : List String) (f : String → Entries → Option Entries) :
    Option Draft := do
  let k ← path.getLast?
  some ⟨← descend (f k) path.dropLast d.root, path⟩

def statement (d : Draft) : Front Draft := fun cs =>
  match cs with
  | '[' :: '[' :: rest => do
    let (path, rest) ← headerPath [']', ']'] rest
    some (← d.openAt path openNext, rest)
  | '[' :: rest => do
    let (path, rest) ← headerPath [']'] rest
    some (← d.openAt path openTable, rest)
  | _ => do
    let ((path, v), rest) ← keyValue (value maxDepth) cs
    let ((), rest) ← lineEnd rest
    some ({ d with root := ← descend (assign v path none) d.path d.root }, rest)

def run : Nat → Draft → List Char → Option Entries
  | 0, _, _ => none
  | fuel + 1, d, cs =>
    match skipAll cs with
    | [] => some d.root
    | '#' :: rest => if (rest.dropWhile isPlain).isEmpty then some d.root else none
    | cs => do
      let (d, rest) ← d.statement cs
      run fuel d rest

end Draft

/-- The table that a text stands for. -/
def parse? (s : String) : Option Entries :=
  let cs := s.toList
  let cs :=
    match cs with
    | '\ufeff' :: rest => rest
    | cs => cs
  Draft.run (cs.length + 1) ⟨[], []⟩ cs

end TaskQueue.Config.Toml
