import TaskQueue.Json.Value

/-!
# JSON text

`Json.compact` writes a value without any space; `Json.pretty` puts every member on a line of its
own, indented by two spaces a level.  Both keep the order of members.
-/

namespace TaskQueue.Json

def hexDigit (n : Nat) : Char :=
  if n < 10 then Char.ofNat (48 + n) else Char.ofNat (87 + n)

/-- A character inside a quoted text: the quote, the backslash and the control characters are
escaped, in the short form where there is one. -/
def escape (c : Char) : List Char :=
  if c = '"' then ['\\', '"']
  else if c = '\\' then ['\\', '\\']
  else if c = '\n' then ['\\', 'n']
  else if c = '\r' then ['\\', 'r']
  else if c = '\t' then ['\\', 't']
  else if c = '\x08' then ['\\', 'b']
  else if c = '\x0c' then ['\\', 'f']
  else if c.toNat < 32 then
    ['\\', 'u', '0', '0', hexDigit (c.toNat / 16), hexDigit (c.toNat % 16)]
  else [c]

def quoted (s : String) : List Char :=
  '"' :: s.toList.flatMap escape ++ ['"']

mutual

/-- The text of a value, without spaces. -/
def chars : Json → List Char
  | .null => ['n', 'u', 'l', 'l']
  | .bool true => ['t', 'r', 'u', 'e']
  | .bool false => ['f', 'a', 'l', 's', 'e']
  | .number n => n.chars
  | .text s => quoted s
  | .array items => '[' :: charsOfItems items ++ [']']
  | .object fields => '{' :: charsOfFields fields ++ ['}']

/-- The texts of the items of an array, with commas between them. -/
def charsOfItems : List Json → List Char
  | [] => []
  | v :: rest =>
    match rest with
    | [] => v.chars
    | _ :: _ => v.chars ++ ',' :: charsOfItems rest

/-- The texts of the members of an object, with commas between them. -/
def charsOfFields : List (String × Json) → List Char
  | [] => []
  | (k, v) :: rest =>
    match rest with
    | [] => quoted k ++ ':' :: v.chars
    | _ :: _ => quoted k ++ ':' :: v.chars ++ ',' :: charsOfFields rest

end

def compact (v : Json) : String :=
  String.ofList v.chars

private def newline (level : Nat) : List Char :=
  '\n' :: List.replicate (2 * level) ' '

mutual

/-- The text of a value spread over lines, the inner ones indented one level deeper. -/
def lines (level : Nat) : Json → List Char
  | .array [] => ['[', ']']
  | .array (v :: rest) =>
    '[' :: linesOfItems (level + 1) (v :: rest) ++ newline level ++ [']']
  | .object [] => ['{', '}']
  | .object (p :: rest) =>
    '{' :: linesOfFields (level + 1) (p :: rest) ++ newline level ++ ['}']
  | v => v.chars

def linesOfItems (level : Nat) : List Json → List Char
  | [] => []
  | v :: rest =>
    match rest with
    | [] => newline level ++ v.lines level
    | _ :: _ => newline level ++ v.lines level ++ ',' :: linesOfItems level rest

def linesOfFields (level : Nat) : List (String × Json) → List Char
  | [] => []
  | (k, v) :: rest =>
    let member := newline level ++ quoted k ++ ':' :: ' ' :: v.lines level
    match rest with
    | [] => member
    | _ :: _ => member ++ ',' :: linesOfFields level rest

end

def pretty (v : Json) : String :=
  String.ofList (v.lines 0)

end TaskQueue.Json
