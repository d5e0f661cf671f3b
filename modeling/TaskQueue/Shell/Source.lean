import TaskQueue.Shell.Script

/-!
# The source of a script

A script is read character by character and line by line, as far as the next command needs it.  A
backslash before a line feed joins lines.  A word that is the name of an alias is replaced by the
text of the alias, which is read in turn.
-/

namespace TaskQueue.Shell

inductive Token where
  | endOfFile
  | newline
  | operator (s : String)
  /-- A redirection of a stream; what it names is a token of its own. -/
  | redirection (stream : Nat) (operator : String)
  | word (w : Word) (quoted : Bool)
  | keyword (s : String)
  deriving Inhabited

namespace Token

def description : Token → String
  | .endOfFile => "end of file"
  | .newline => "newline"
  | .operator s => "\"" ++ s ++ "\""
  | .redirection _ _ => "redirection"
  | .word _ _ => "word"
  | .keyword s => "\"" ++ s ++ "\""

def isOperator (t : Token) (s : String) : Bool :=
  match t with
  | .operator o => o == s
  | _ => false

def isKeyword (t : Token) (s : String) : Bool :=
  match t with
  | .keyword k => k == s
  | _ => false

/-- Whether a list of commands may end before this token. -/
def endsList : Token → Bool
  | .endOfFile => true
  | .operator s => s ∈ [")", ";;"]
  | .keyword s => s ∈ ["do", "done", "elif", "else", "esac", "fi", "then", "\x7d"]
  | _ => false

/-- The words with a meaning of their own at the start of a command. -/
def keywords : List String :=
  ["!", "case", "do", "done", "elif", "else", "esac", "fi", "for", "if", "in", "then", "until",
   "while", "\x7b", "\x7d"]

end Token

inductive ScriptFlaw where
  | unexpected (token : String) (expected : Option String)
  | openQuotation
  | openBrace
  | openArithmetic
  | openBackQuote
  | loopVariable
  | functionName
  | endless
  deriving DecidableEq, Repr, Inhabited

def ScriptFlaw.message (f : ScriptFlaw) : String :=
  "Syntax error: " ++
    match f with
    | .unexpected token none => s!"{token} unexpected"
    | .unexpected token (some expected) => s!"{token} unexpected (expecting {expected})"
    | .openQuotation => "Unterminated quoted string"
    | .openBrace => "Missing '\x7d'"
    | .openArithmetic => "Missing '))'"
    | .openBackQuote => "EOF in backquote substitution"
    | .loopVariable => "Bad for loop variable"
    | .functionName => "Bad function name"
    | .endless => "Script too long"

/-- What a word may be taken for when the next token is read. -/
structure Checks where
  lineFeeds : Bool
  keywords : Bool
  aliases : Bool
  /-- The word is the last line of a document, in which nothing is filled in. -/
  documentEnd : Bool

def Checks.none : Checks :=
  ⟨false, false, false, false⟩

structure Waiting where
  number : Nat
  lastLine : List Char
  dropsTabs : Bool
  literal : Bool

structure ActiveAlias where
  /-- The alias, and those whose text had been read just before. -/
  names : List String
  after : Nat
  endsInBlank : Bool

structure Source where
  rest : List Char
  line : Nat
  /-- The last token, and whether it is to be read again. -/
  last : Token
  again : Bool
  checks : Checks
  waiting : List Waiting
  documents : Array Word
  aliases : List (String × String)
  active : List ActiveAlias
  /-- The aliases whose text ended before the last character that was taken. -/
  left : List String

abbrev Reading (α : Type) := EStateM ScriptFlaw Source α

namespace Source

def ofScript (script : String) (documents : Array Word) (aliases : List (String × String)) :
    Source where
  rest := script.toList
  line := 1
  last := .endOfFile
  again := false
  checks := .none
  waiting := []
  documents := documents
  aliases := aliases
  active := []
  left := []

/-- Leaves the aliases whose text has been read.  After one that ends in a blank, the next word may
be an alias, too. -/
def leaveAliases (s : Source) : Source :=
  if s.active.isEmpty then if s.left.isEmpty then s else { s with left := [] }
  else
    let n := s.rest.length
    let left := s.active.takeWhile fun a => n ≤ a.after
    { s with
      active := s.active.drop left.length
      left := left.flatMap (·.names)
      checks := { s.checks with aliases := s.checks.aliases || left.any (·.endsInBlank) } }

def aliasesInUse (s : Source) : List String :=
  s.active.flatMap (·.names) ++ s.left

/-- The next character, none at the end. -/
def take : Reading (Option Char) :=
  modifyGet fun s =>
    let s := s.leaveAliases
    match s.rest with
    | [] => (none, s)
    | c :: rest => (some c, { s with rest })

def putBack (c : Option Char) : Reading Unit :=
  modify fun s => { s with rest := c.toList ++ s.rest }

def countLine : Reading Unit :=
  modify fun s => { s with line := s.line + 1 }

/-- The rest of a text after joined lines, and their number. -/
def joined : Nat → List Char → List Char × Nat
  | n, '\\' :: '\n' :: rest => joined (n + 1) rest
  | n, cs => (cs, n)

def takeJoined : Reading (Option Char) := do
  modify fun s =>
    match s.rest with
    | '\\' :: _ =>
      let (rest, n) := joined 0 s.rest
      { s with rest, line := s.line + n }
    | _ => s
  take

def skipComment : Reading Unit :=
  modify fun s => { s with rest := s.rest.dropWhile (· ≠ '\n') }

def setChecks (checks : Checks) : Reading Unit :=
  modify fun s => { s with checks }

def pushBack : Reading Unit :=
  modify fun s => { s with again := true }

def refuse (expected : Option String) : Reading α := do
  throw (.unexpected (← get).last.description (expected.map fun s => "\"" ++ s ++ "\""))

def refuseForWord : Reading α := do
  throw (.unexpected (← get).last.description (some "word"))

end Source

end TaskQueue.Shell
