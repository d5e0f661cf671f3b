/-!
# Long options

An option with a long name may be shortened as long as its name is the only one that begins so.  What
stands after an equals sign is its argument.
-/

namespace TaskQueue.Shell

inductive LongOptionFlaw where
  | unknown (text : String)
  | ambiguous (text : String) (names : List String)
  deriving DecidableEq, Repr

namespace LongOptionFlaw

def message : LongOptionFlaw → String
  | .unknown text => "unrecognized option '" ++ text ++ "'"
  | .ambiguous text names =>
    "option '" ++ text ++ "' is ambiguous; possibilities:" ++
      String.join (names.map fun name => " '--" ++ name ++ "'")

end LongOptionFlaw

namespace LongOption

/-- The name in an option, and its argument if it has one. -/
def split (text : String) : List Char × Option String :=
  let cs := text.toList.drop 2
  let name := cs.takeWhile (· ≠ '=')
  (name,
    if name.length < cs.length then some (String.ofList (cs.drop (name.length + 1))) else none)

/-- The known name that an option stands for, with what it means, and the argument. -/
def find (known : List (String × α)) (text : String) :
    Except LongOptionFlaw (String × α × Option String) :=
  let (name, value) := split text
  match known.find? fun p => p.1.toList = name with
  | some (full, a) => .ok (full, a, value)
  | none =>
    match known.filter fun p => name.isPrefixOf p.1.toList with
    | [] => .error (.unknown text)
    | [(full, a)] => .ok (full, a, value)
    | several => .error (.ambiguous text (several.map Prod.fst))

end LongOption

end TaskQueue.Shell
