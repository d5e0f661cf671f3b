/-!
# TOML values

The values of a configuration text.  No setting is a number with a fraction or a time, so these
values are only told apart from others.
-/

namespace TaskQueue.Config.Toml

/-- How a table came about, which decides who may still add to it. -/
inductive Origin where
  /-- The table has a header of its own, or stands between braces. -/
  | stated
  /-- The table is named on the way to another one in a header. -/
  | implied
  /-- The table is named on the way to a value in a dotted key. -/
  | dotted
  deriving DecidableEq, Repr, Inhabited

inductive Value where
  | text (s : String)
  | integer (n : Int)
  | real
  | bool (b : Bool)
  | time
  | array (items : List Value)
  /-- The table between braces, which is complete. -/
  | inline (entries : List (String × Value))
  | table (origin : Origin) (entries : List (String × Value))
  /-- The tables of a repeated header, the last one first. -/
  | tables (newestFirst : List (List (String × Value)))
  deriving Repr, Inhabited

abbrev Entries := List (String × Value)

namespace Entries

def get? (entries : Entries) (key : String) : Option Value :=
  (entries.find? fun p => p.1 = key).map Prod.snd

/-- Puts a value in the place of the one with the same key, or at the end. -/
def set (key : String) (value : Value) : Entries → Entries
  | [] => [(key, value)]
  | (k, v) :: rest => if k = key then (key, value) :: rest else (k, v) :: set key value rest

end Entries

end TaskQueue.Config.Toml
