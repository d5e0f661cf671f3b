/-!
# Scripts

A script is made of commands, and commands are made of words.  A word is a list of pieces: letters,
and what is filled in when the command is run.  Texts have a character for each byte.
-/

namespace TaskQueue.Shell

inductive FileUse where
  | read
  | write
  /-- To write even if files are to be spared. -/
  | overwrite
  | append
  | readWrite
  deriving DecidableEq, Repr, Inhabited

mutual

/-- A part of a word.  Quoted pieces are not split, and no letter of them matches others. -/
inductive Piece where
  | letters (cs : List Char) (quoted : Bool)
  | mark
  | parameter (name : String) (usage : Usage) (quoted : Bool)
  | output (script : Option Script) (quoted : Bool)
  | arithmetic (expression : List Piece) (quoted : Bool)

/-- What becomes of the value of a parameter.  An empty value may count as none. -/
inductive Usage where
  | value
  | length
  | unknown
  /-- Another text if there is no value. -/
  | orElse (alsoEmpty : Bool) (word : List Piece)
  /-- Another text if there is a value. -/
  | ifSet (alsoEmpty : Bool) (word : List Piece)
  /-- Sets the parameter if there is no value. -/
  | assign (alsoEmpty : Bool) (word : List Piece)
  /-- Complains if there is no value. -/
  | require (alsoEmpty : Bool) (word : List Piece)
  /-- Drops the shortest or longest part that matches a pattern, at the start or at the end. -/
  | trim (atStart longest : Bool) (pattern : List Piece)

/-- A command.  Lines are those of the script on which a command begins. -/
inductive Script where
  /-- A simple command: variables that it sets, and words. -/
  | simple (line : Nat) (assignments words : List (List Piece)) (redirections : List Redirection)
  | sequence (a b : Script)
  /-- The second part is run if the first one succeeds. -/
  | both (a b : Script)
  /-- The second part is run if the first one fails. -/
  | either (a b : Script)
  | negation (a : Script)
  | pipe (stages : List Script) (background : Bool)
  | subshell (line : Nat) (a : Script) (redirections : List Redirection)
  | background (line : Nat) (a : Script) (redirections : List Redirection)
  | redirected (line : Nat) (a : Script) (redirections : List Redirection)
  | branch (condition yes : Script) (no : Option Script)
  /-- Repeats the body as long as the condition succeeds, or fails if `inverted`. -/
  | loop (inverted : Bool) (condition body : Script)
  | each (line : Nat) (name : String) (words : List (List Piece)) (body : Script)
  /-- Runs what stands after the first pattern that matches. -/
  | choice (line : Nat) (subject : List Piece) (cases : List (List (List Piece) × Option Script))
  | definition (line : Nat) (name : String) (body : Script)

inductive Redirection where
  | file (stream : Nat) (use : FileUse) (name : List Piece)
  /-- Takes a stream from another one, or closes it. -/
  | copy (stream : Nat) (source : Option Nat)
  | copyNamed (stream : Nat) (source : List Piece)
  /-- Reads a document of the script, by its number. -/
  | document (stream : Nat) (number : Nat)

end

instance : Inhabited Piece := ⟨.mark⟩

instance : Inhabited Script := ⟨.simple 0 [] [] []⟩

abbrev Word := List Piece

/-- The letters of a word that has nothing else and is not quoted. -/
def Word.plain? : Word → Option String
  | [] => some ""
  | [.letters cs false] => some (String.ofList cs)
  | _ => none

/-- The text of a word without its quotation marks; what is to be filled in is left out. -/
def Word.text (w : Word) : String :=
  String.ofList (w.flatMap fun
    | .letters cs _ => cs
    | _ => [])

def isNameStart (c : Char) : Bool :=
  c.isAlpha || c == '_'

def isNameChar (c : Char) : Bool :=
  c.isAlphanum || c == '_'

def isName (s : String) : Bool :=
  match s.toList with
  | [] => false
  | c :: rest => isNameStart c && rest.all isNameChar

def Word.assigned? : Word → Option String
  | .letters cs false :: _ =>
    let name := cs.takeWhile isNameChar
    if isName (String.ofList name) ∧ (cs.drop name.length).head? = some '=' then
      some (String.ofList name)
    else none
  | _ => none

end TaskQueue.Shell
