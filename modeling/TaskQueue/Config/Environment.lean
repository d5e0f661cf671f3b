/-!
# Variables of the environment in a text

A text names variables between `$\x7b` and `\x7d`.  What stands between is a name, a name with a
default after `:-`, or a name with a message after `:?` for the case that the variable is not set.
-/

namespace TaskQueue.Config

abbrev Environment := List (String × String)

namespace Environment

/-- The value after `name=` in an entry. -/
private def valueAfter? : List Char → List Char → Option (List Char)
  | [], '=' :: rest => some rest
  | n :: ns, c :: cs => if n = c then valueAfter? ns cs else none
  | _, _ => none

/-- The value of a variable.  An empty name names nothing, and neither does one with a null
character. -/
def get? (env : Environment) (name : String) : Option String :=
  let cs := name.toList
  if cs.isEmpty ∨ '\x00' ∈ cs then none
  else
    env.findSome? fun (k, v) => (valueAfter? cs (k.toList ++ '=' :: v.toList)).map String.ofList

end Environment

inductive Expression where
  | plain (name : List Char)
  | withDefault (name default : List Char)
  | withMessage (name message : List Char)
  deriving DecidableEq, Repr

/-- Splits a text at the first occurrence of a colon followed by the given character. -/
def splitAtMark (mark : Char) : List Char → Option (List Char × List Char)
  | [] => none
  | [_] => none
  | a :: b :: rest =>
    if a = ':' ∧ b = mark then some ([], rest)
    else (splitAtMark mark (b :: rest)).map fun (before, after) => (a :: before, after)

/-- The expression of a text; a default is looked for first. -/
def Expression.ofChars (body : List Char) : Expression :=
  match splitAtMark '-' body with
  | some (name, default) => .withDefault name default
  | none =>
    match splitAtMark '?' body with
    | some (name, message) => .withMessage name message
    | none => .plain body

/-- The value of an expression, or the message for a variable that has none. -/
def Expression.value (env : Environment) : Expression → Except String (List Char)
  | .plain name =>
    let name := String.ofList name
    match env.get? name with
    | some v => .ok v.toList
    | none => .error s!"Required environment variable '{name}' is not set"
  | .withDefault name default =>
    .ok (((env.get? (String.ofList name)).map String.toList).getD default)
  | .withMessage name message =>
    let name := String.ofList name
    let message := String.ofList message
    match env.get? name with
    | some v => .ok v.toList
    | none => .error s!"Required environment variable '{name}' is not set: {message}"

/-- The body of the expression whose opening mark stands just before a text: everything up to the
closing brace, if this is not nothing. -/
def bodyOf? (cs : List Char) : Option (List Char) :=
  let body := cs.takeWhile (· ≠ '\x7d')
  if body.isEmpty ∨ cs.length = body.length then none else some body

/-- The bodies of the expressions of a text, from left to right; `skip` counts the characters that
belong to an expression already found. -/
def bodies (skip : Nat) : List Char → List (List Char)
  | [] => []
  | c :: cs =>
    match skip with
    | skip + 1 => bodies skip cs
    | 0 =>
      match c, cs with
      | '$', '\x7b' :: rest =>
        match bodyOf? rest with
        | some body => body :: bodies (body.length + 2) cs
        | none => bodies 0 cs
      | _, _ => bodies 0 cs

def marked (body : List Char) : List Char :=
  '$' :: '\x7b' :: body ++ ['\x7d']

/-- Replaces every occurrence of a text, from left to right; `skip` counts the characters that
belong to an occurrence already replaced. -/
def replaceAll (pattern replacement : List Char) (skip : Nat) : List Char → List Char
  | [] => []
  | c :: cs =>
    match skip with
    | skip + 1 => replaceAll pattern replacement skip cs
    | 0 =>
      if pattern.isPrefixOf (c :: cs) then
        replacement ++ replaceAll pattern replacement (pattern.length - 1) cs
      else c :: replaceAll pattern replacement 0 cs

/-- Replaces the expressions of a text one after the other, each wherever it occurs by then. -/
def substituteChars (env : Environment) (cs : List Char) : Except String (List Char) :=
  (bodies 0 cs).foldlM
    (fun result body =>
      ((Expression.ofChars body).value env).map fun v => replaceAll (marked body) v 0 result)
    cs

def substitute (env : Environment) (s : String) : Except String String :=
  (substituteChars env s.toList).map String.ofList

end TaskQueue.Config
