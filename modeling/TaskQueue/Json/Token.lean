import TaskQueue.Json.Number

/-!
# The tokens of a JSON text

`Token.scan?` cuts a text into tokens with an automaton that reads one character at a time.  A
number that is too large and a text with half a surrogate pair are tokens without a value: such a
token may stand where nobody reads it.
-/

namespace TaskQueue.Json

/-- A character of a quoted text as it is written: itself, or sixteen bits in hexadecimal. -/
inductive Piece where
  | char (c : Char)
  | unit (n : Nat)
  deriving DecidableEq, Repr

/-- The characters that pieces stand for; none if a surrogate lacks its partner. -/
def Piece.decode : List Piece → Option (List Char)
  | [] => some []
  | .char c :: rest => (Piece.decode rest).map (c :: ·)
  | .unit high :: .unit low :: rest =>
    if 0xD800 ≤ high ∧ high < 0xDC00 then
      if 0xDC00 ≤ low ∧ low < 0xE000 then
        (Piece.decode rest).map
          (Char.ofNat (0x10000 + (high - 0xD800) * 0x400 + (low - 0xDC00)) :: ·)
      else none
    else if 0xDC00 ≤ high ∧ high < 0xE000 then none
    else (Piece.decode (.unit low :: rest)).map (Char.ofNat high :: ·)
  | .unit n :: rest =>
    if 0xD800 ≤ n ∧ n < 0xE000 then none
    else (Piece.decode rest).map (Char.ofNat n :: ·)

inductive Token where
  | openArray
  | closeArray
  | openObject
  | closeObject
  | colon
  | comma
  | null
  | bool (b : Bool)
  | number (n : Option Number)
  | text (s : Option String)
  deriving DecidableEq, Repr

/-- What the scanner is in the middle of.  Lists hold what was read, newest first. -/
inductive Scanner where
  | between
  | word (missing : List Char) (token : Token)
  | numeral (read : List Char)
  | text (read : List Piece)
  | escaped (read : List Piece)
  | unit (read : List Piece) (digits : Nat) (value : Nat)
  deriving DecidableEq, Repr

def isSpace (c : Char) : Bool :=
  c = ' ' ∨ c = '\t' ∨ c = '\n' ∨ c = '\r'

/-- The characters of which numerals consist. -/
def isNumeral (c : Char) : Bool :=
  c.isDigit ∨ c = '-' ∨ c = '+' ∨ c = '.' ∨ c = 'e' ∨ c = 'E'

def hexValue? (c : Char) : Option Nat :=
  if c.isDigit then some (c.toNat - 48)
  else if 'a' ≤ c ∧ c ≤ 'f' then some (c.toNat - 87)
  else if 'A' ≤ c ∧ c ≤ 'F' then some (c.toNat - 55)
  else none

def shortEscape? (c : Char) : Option Char :=
  if c = '"' ∨ c = '\\' ∨ c = '/' then some c
  else if c = 'b' then some '\x08'
  else if c = 'f' then some '\x0c'
  else if c = 'n' then some '\n'
  else if c = 'r' then some '\r'
  else if c = 't' then some '\t'
  else none

namespace Scanner

/-- Reads a character that starts a token, or a space. -/
def start (c : Char) : Option (Scanner × List Token) :=
  if isSpace c then some (.between, [])
  else if c = '[' then some (.between, [.openArray])
  else if c = ']' then some (.between, [.closeArray])
  else if c = '{' then some (.between, [.openObject])
  else if c = '}' then some (.between, [.closeObject])
  else if c = ':' then some (.between, [.colon])
  else if c = ',' then some (.between, [.comma])
  else if c = '"' then some (.text [], [])
  else if c = 'n' then some (.word ['u', 'l', 'l'] .null, [])
  else if c = 't' then some (.word ['r', 'u', 'e'] (.bool true), [])
  else if c = 'f' then some (.word ['a', 'l', 's', 'e'] (.bool false), [])
  else if c = '-' ∨ c.isDigit then some (.numeral [c], [])
  else none

def numeralToken? (read : List Char) : Option Token :=
  (Numeral.read? read.reverse).map fun n => .number n.number?

/-- Reads one character: the next state, and the tokens that are now complete. -/
def step : Scanner → Char → Option (Scanner × List Token)
  | .between, c => start c
  | .word [] token, c => do
    let (next, tokens) ← start c
    some (next, token :: tokens)
  | .word (m :: missing) token, c =>
    if c = m then
      match missing with
      | [] => some (.between, [token])
      | _ :: _ => some (.word missing token, [])
    else none
  | .numeral read, c =>
    if isNumeral c then some (.numeral (c :: read), [])
    else do
      let token ← numeralToken? read
      let (next, tokens) ← start c
      some (next, token :: tokens)
  | .text read, c =>
    if c = '"' then
      some (.between, [.text ((Piece.decode read.reverse).map String.ofList)])
    else if c = '\\' then some (.escaped read, [])
    else if c.toNat < 32 then none
    else some (.text (.char c :: read), [])
  | .escaped read, c =>
    if c = 'u' then some (.unit read 4 0, [])
    else (shortEscape? c).map fun d => (.text (.char d :: read), [])
  | .unit read digits value, c =>
    (hexValue? c).map fun d =>
      let value := 16 * value + d
      if digits ≤ 1 then (.text (.unit value :: read), []) else (.unit read (digits - 1) value, [])

/-- The tokens that are complete when the text ends here. -/
def finish : Scanner → Option (List Token)
  | .between => some []
  | .numeral read => (numeralToken? read).map ([·])
  | _ => none

/-- The tokens of a text, read from a state of the scanner. -/
def run : Scanner → List Char → Option (List Token)
  | s, [] => s.finish
  | s, c :: cs => do
    let (next, tokens) ← s.step c
    (run next cs).map (tokens ++ ·)

end Scanner

def Token.scan? (cs : List Char) : Option (List Token) :=
  Scanner.run .between cs

end TaskQueue.Json
