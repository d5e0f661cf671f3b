import TaskQueue.Bytes
import TaskQueue.Text.Escaped

/-!
# Where the database is

The address of a database is a path, with or without `sqlite://` before it.
-/

namespace TaskQueue.Store

structure Location where
  path : String
  deriving DecidableEq, Repr, Inhabited

namespace Location

/-- What may stand before a path. -/
def scheme : List Char := ['s', 'q', 'l', 'i', 't', 'e', ':', '/', '/']

def ofUrl (url : String) : Location :=
  let cs := url.toList
  if scheme.isPrefixOf cs then ⟨String.ofList (cs.drop scheme.length)⟩ else ⟨url⟩

def description (l : Location) : String :=
  "Database \x7b url: " ++ Text.escaped l.path ++ ", .. \x7d"

/-- The bytes of the name that the database is opened by; a path that begins with the scheme stands
for one that begins with `file:` instead. -/
def name (l : Location) : Bytes :=
  let cs := l.path.toList
  if scheme.isPrefixOf cs then
    Bytes.ofString "file:" ++ Bytes.ofChars (cs.drop scheme.length)
  else Bytes.ofString l.path

end Location

end TaskQueue.Store
