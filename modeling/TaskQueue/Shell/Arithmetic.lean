import TaskQueue.Decimal.Digits
import TaskQueue.Shell.Script

/-!
# Arithmetic of the shell

Expressions over 64-bit integers.  A variable stands for the number that its value is; operators may
give variables new values.  What an operator does not need is read, but not evaluated.
-/

namespace TaskQueue.Shell

inductive Lexeme where
  | number (n : Int64)
  | named (name : String)
  | symbol (s : String)
  | finish
  deriving DecidableEq, Repr, Inhabited

inductive ArithmeticFlaw where
  | expectsPrimary
  | expectsEnd
  | expectsColon
  | expectsBracket
  | divisionByZero
  | illegalNumber (value : String)
  | readOnly (name : String)
  /-- The result of a division is no 64-bit integer. -/
  | overflow
  deriving DecidableEq, Repr, Inhabited

def ArithmeticFlaw.message (expression : String) (f : ArithmeticFlaw) : String :=
  match f with
  | .illegalNumber value => "Illegal number: " ++ value
  | .readOnly name => name ++ ": is read only"
  | f =>
    let what :=
      match f with
      | .expectsPrimary => "expecting primary"
      | .expectsEnd => "expecting EOF"
      | .expectsColon => "expecting ':'"
      | .expectsBracket => "expecting ')'"
      | _ => "division by zero"
    "arithmetic expression: " ++ what ++ ": \"" ++ expression ++ "\""

namespace Arithmetic

/-- The digits of a number in a base, up to 36. -/
def digitValue? (base : Nat) (c : Char) : Option Nat :=
  let v :=
    if c.isDigit then c.toNat - '0'.toNat
    else if 'a' ≤ c ∧ c ≤ 'z' then c.toNat - 'a'.toNat + 10
    else if 'A' ≤ c ∧ c ≤ 'Z' then c.toNat - 'A'.toNat + 10
    else 36
  if v < base then some v else none

/-- The number of the digits that a text begins with, and the rest. -/
def digitsIn (base : Nat) (cs : List Char) : Nat × List Char :=
  let ds := cs.takeWhile fun c => (digitValue? base c).isSome
  (ds.foldl (fun n c => base * n + (digitValue? base c).getD 0) 0, cs.drop ds.length)

/-- The number that a text begins with: hexadecimal after `0x`, octal after another zero, and else
decimal. -/
def numeral (cs : List Char) : Nat × List Char :=
  match cs with
  | '0' :: x :: d :: rest =>
    if (x = 'x' ∨ x = 'X') ∧ (digitValue? 16 d).isSome then digitsIn 16 (d :: rest)
    else digitsIn 8 cs
  | '0' :: _ => digitsIn 8 cs
  | _ => digitsIn 10 cs

def isSpace (c : Char) : Bool :=
  c = ' ' || (9 ≤ c.toNat && c.toNat ≤ 13)

/-- The number that a text begins with, after blanks and a sign; none if there are no digits. -/
def leadingInt? (cs : List Char) : Option (Int × List Char) :=
  let cs := cs.dropWhile isSpace
  let (negative, cs) :=
    match cs with
    | '-' :: cs => (true, cs)
    | '+' :: cs => (false, cs)
    | cs => (false, cs)
  if (cs.head?.map Char.isDigit).getD false then
    let (n, rest) := numeral cs
    some (if negative then -(n : Int) else n, rest)
  else none

/-- The least and the greatest 64-bit integer keep what lies beyond them. -/
def saturate (i : Int) : Int64 :=
  Int64.ofInt (max (-(2 ^ (63 : Nat))) (min i (2 ^ (63 : Nat) - 1)))

/-- The number that the value of a variable is; blanks may surround it, and no value is zero. -/
def ofValue? (s : String) : Option Int64 :=
  match leadingInt? s.toList with
  | some (i, rest) => if rest.all isSpace then some (saturate i) else none
  | none => if s.toList.all isSpace then some 0 else none

/-- The operators, longer ones first. -/
def operators : List String :=
  ["<<=", ">>=", "<<", ">>", "<=", ">=", "==", "!=", "&&", "||", "+=", "-=", "*=", "/=", "%=",
   "&=", "|=", "^=", "<", ">", "+", "-", "*", "/", "%", "(", ")", "!", "~", "&", "|", "^", "=",
   "?", ":"]

/-- The next lexeme and the rest; a character without a meaning is a symbol of its own. -/
def lexeme (cs : List Char) : Lexeme × List Char :=
  let cs := cs.dropWhile fun c => c = ' ' ∨ c = '\t' ∨ c = '\n'
  match cs with
  | [] => (.finish, [])
  | c :: rest =>
    if c.isDigit then
      let (n, rest) := numeral cs
      (.number (saturate n), rest)
    else if isNameStart c then
      let name := cs.takeWhile isNameChar
      (.named (String.ofList name), cs.drop name.length)
    else
      match operators.find? fun s => s.toList.isPrefixOf cs with
      | some s => (.symbol s, cs.drop s.length)
      | none => (.symbol c.toString, rest)

/-- Whether an operator gives a variable a new value, and by which operator from its old one. -/
def assignment? (s : String) : Option (Option String) :=
  if s = "=" then some none
  else if s ∈ ["+=", "-=", "*=", "/=", "%=", "&=", "|=", "^=", "<<=", ">>="] then
    some (some (String.ofList s.toList.dropLast))
  else none

/-- How tightly a binary operator binds; zero if it is none. -/
def precedence : String → Nat
  | "|" => 1
  | "^" => 2
  | "&" => 3
  | "==" | "!=" => 4
  | "<" | ">" | "<=" | ">=" => 5
  | "<<" | ">>" => 6
  | "+" | "-" => 7
  | "*" | "/" | "%" => 8
  | _ => 0

def ofBool (b : Bool) : Int64 :=
  if b then 1 else 0

def combine (operator : String) (a b : Int64) : Except ArithmeticFlaw Int64 :=
  match operator with
  | "|" => .ok (a ||| b)
  | "^" => .ok (a ^^^ b)
  | "&" => .ok (a &&& b)
  | "==" => .ok (ofBool (a = b))
  | "!=" => .ok (ofBool (a ≠ b))
  | "<" => .ok (ofBool (a < b))
  | ">" => .ok (ofBool (b < a))
  | "<=" => .ok (ofBool (a ≤ b))
  | ">=" => .ok (ofBool (b ≤ a))
  | "<<" => .ok (a <<< b)
  | ">>" => .ok (a >>> b)
  | "+" => .ok (a + b)
  | "-" => .ok (a - b)
  | "*" => .ok (a * b)
  | _ =>
    if b = 0 then .error .divisionByZero
    else if a.toInt = -(2 ^ (63 : Nat)) ∧ b = -1 then .error .overflow
    else if operator = "/" then .ok (a / b)
    else .ok (a % b)

/-- An expression that is partly evaluated: the next lexeme, what follows it, and the variables. -/
structure Progress where
  next : Lexeme
  rest : List Char
  values : List (String × String)
  value? : String → Option String
  isReadOnly : String → Bool

abbrev Step (α : Type) := EStateM ArithmeticFlaw Progress α

def advance : Step Unit :=
  modify fun p =>
    let (next, rest) := lexeme p.rest
    { p with next, rest }

def look (name : String) : Step Int64 := do
  let p ← get
  let value := ((p.values.lookup name).or (p.value? name)).getD ""
  match ofValue? value with
  | some n => return n
  | none => throw (.illegalNumber value)

def assign (name : String) (n : Int64) : Step Unit := do
  let p ← get
  if p.isReadOnly name then throw (.readOnly name)
  set { p with values := (name, toString n.toInt) :: p.values }

/-- Applies an operator unless nothing is evaluated. -/
def apply (idle : Bool) (operator : String) (a b : Int64) : Step Int64 :=
  if idle then pure b
  else
    match combine operator a b with
    | .ok n => pure n
    | .error flaw => throw flaw

/-- The operator that comes next; the empty one if none does. -/
def nextSymbol : Step String := do
  match (← get).next with
  | .symbol s => return s
  | _ => return ""

mutual

/-- Evaluates an expression that may give a variable a value. -/
def assignment : Nat → Bool → Step Int64
  | 0, _ => throw .expectsPrimary
  | n + 1, idle => do
    let before ← get
    match before.next with
    | .named name =>
      advance
      match assignment? (← nextSymbol) with
      | none =>
        set before
        conditional n idle
      | some operator? =>
        advance
        let value ← assignment n idle
        if idle then return value
        let value ←
          match operator? with
          | none => pure value
          | some operator => apply false operator (← look name) value
        assign name value
        return value
    | _ => conditional n idle

def conditional : Nat → Bool → Step Int64
  | 0, _ => throw .expectsPrimary
  | n + 1, idle => do
    let a ← disjunction n idle
    if (← nextSymbol) = "?" then
      advance
      let b ← assignment n (idle || a == 0)
      unless (← nextSymbol) = ":" do throw .expectsColon
      advance
      let c ← conditional n (idle || a != 0)
      return if a ≠ 0 then b else c
    else return a

def disjunction : Nat → Bool → Step Int64
  | 0, _ => throw .expectsPrimary
  | n + 1, idle => do
    let a ← conjunction n idle
    if (← nextSymbol) = "||" then
      advance
      let b ← disjunction n (idle || a != 0)
      return ofBool (a ≠ 0 ∨ b ≠ 0)
    else return a

def conjunction : Nat → Bool → Step Int64
  | 0, _ => throw .expectsPrimary
  | n + 1, idle => do
    let a ← operations n idle 1 (← operand n idle)
    if (← nextSymbol) = "&&" then
      advance
      let b ← conjunction n (idle || a == 0)
      return ofBool (a ≠ 0 ∧ b ≠ 0)
    else return a

/-- Goes on from the left operand with operators that bind at least as tightly as `least`. -/
def operations : Nat → Bool → Nat → Int64 → Step Int64
  | 0, _, _, _ => throw .expectsPrimary
  | n + 1, idle, least, a => do
    let operator ← nextSymbol
    let p := precedence operator
    if p < least ∨ p = 0 then return a
    else
      advance
      let b ← operations n idle (p + 1) (← operand n idle)
      operations n idle least (← apply idle operator a b)

def operand : Nat → Bool → Step Int64
  | 0, _ => throw .expectsPrimary
  | n + 1, idle => do
    match (← get).next with
    | .number k =>
      advance
      return k
    | .named name =>
      advance
      if idle then return 0 else look name
    | .symbol "(" =>
      advance
      let a ← assignment n idle
      unless (← nextSymbol) = ")" do throw .expectsBracket
      advance
      return a
    | .symbol "+" =>
      advance
      operand n idle
    | .symbol "-" =>
      advance
      return -(← operand n idle)
    | .symbol "!" =>
      advance
      return ofBool ((← operand n idle) == 0)
    | .symbol "~" =>
      advance
      return ~~~(← operand n idle)
    | _ => throw .expectsPrimary

end

/-- Evaluates a whole expression of at most `n` characters. -/
def whole (n : Nat) : Step Int64 := do
  advance
  let a ← assignment (8 * n + 8) false
  unless (← get).next = .finish do throw .expectsEnd
  return a

/-- The value of an expression, and the variables that it sets, the last one first. -/
def evaluate (value? : String → Option String) (isReadOnly : String → Bool) (expression : String) :
    Except ArithmeticFlaw (Int64 × List (String × String)) :=
  let cs := expression.toList
  match whole cs.length ⟨.finish, cs, [], value?, isReadOnly⟩ with
  | .ok a p => .ok (a, p.values)
  | .error flaw _ => .error flaw

end Arithmetic

end TaskQueue.Shell
