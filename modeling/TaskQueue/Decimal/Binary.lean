import TaskQueue.Decimal.Digits

/-!
# Binary floating point

A number of a binary format is a mantissa of limited length with a power of two.  Any fraction is
rounded to a number of the format, and texts are read as the numbers nearest to them; a half goes to
the even neighbour.
-/

namespace TaskQueue.Decimal

/-- The nearest integer to a fraction; a half goes to the even one. -/
def roundHalfEven (numerator denominator : Nat) : Nat :=
  let q := numerator / denominator
  let twice := 2 * (numerator % denominator)
  if twice < denominator ∨ (twice = denominator ∧ q % 2 = 0) then q else q + 1

/-- A number, or what stands for one that is too large or unknown. -/
inductive Quantity where
  | finite (negative : Bool) (mantissa : Nat) (exponent : Int)
  | infinite (negative : Bool)
  | unknown (negative : Bool)
  deriving DecidableEq, Repr, Inhabited

namespace Quantity

def isNegative : Quantity → Bool
  | .finite negative _ _ => negative
  | .infinite negative => negative
  | .unknown negative => negative

/-- The numerator and the denominator of a mantissa with a power of two. -/
def fraction (mantissa : Nat) (exponent : Int) : Nat × Nat :=
  if 0 ≤ exponent then (mantissa * 2 ^ exponent.toNat, 1) else (mantissa, 2 ^ (-exponent).toNat)

def signedFraction (negative : Bool) (mantissa : Nat) (exponent : Int) : Int × Nat :=
  let (n, d) := fraction mantissa exponent
  (if negative then -(n : Int) else n, d)

/-- Whether a number is less than another one; nothing is less than an unknown number. -/
def isLess : Quantity → Quantity → Bool
  | .unknown _, _ => false
  | _, .unknown _ => false
  | .infinite a, .infinite b => a && !b
  | .infinite a, _ => a
  | _, .infinite b => !b
  | .finite a m e, .finite b n f =>
    let (x, c) := signedFraction a m e
    let (y, d) := signedFraction b n f
    x * d < y * c

def isSame (a b : Quantity) : Bool :=
  match a, b with
  | .unknown _, _ => false
  | _, .unknown _ => false
  | a, b => !a.isLess b && !b.isLess a

end Quantity

/-- A binary format: the length of mantissas, the least exponent of their last place, and the power of
two that numbers stay below. -/
structure BinaryFormat where
  bits : Nat
  least : Int
  bound : Nat

namespace BinaryFormat

/-- The format of 64 bits. -/
def double : BinaryFormat :=
  ⟨53, -1074, 1024⟩

/-- The format of 80 bits. -/
def extended : BinaryFormat :=
  ⟨64, -16445, 16384⟩

def round (f : BinaryFormat) (negative : Bool) (numerator denominator : Nat) : Quantity :=
  if numerator = 0 then .finite negative 0 0
  else
    let guess : Int := (numerator.log2 : Int) - (denominator.log2 : Int) - f.bits
    let mantissaAt (exponent : Int) : Nat :=
      if 0 ≤ exponent then roundHalfEven numerator (denominator * 2 ^ exponent.toNat)
      else roundHalfEven (numerator * 2 ^ (-exponent).toNat) denominator
    let close := max guess f.least
    let exponent := if mantissaAt close < 2 ^ f.bits then close else close + 1
    let (m, exponent) :=
      let m := mantissaAt exponent
      if m < 2 ^ f.bits then (m, exponent) else (m / 2, exponent + 1)
    let (n, d) := Quantity.fraction m exponent
    if d * 2 ^ f.bound ≤ n then .infinite negative else .finite negative m exponent

def add (f : BinaryFormat) (a b : Quantity) : Quantity :=
  match a, b with
  | .finite s m e, .finite t n g =>
    let (x, c) := Quantity.signedFraction s m e
    let (y, d) := Quantity.signedFraction t n g
    let sum := x * d + y * c
    f.round (if sum = 0 then s && t else sum < 0) sum.natAbs (c * d)
  | .unknown s, _ => .unknown s
  | _, .unknown s => .unknown s
  | .infinite s, .infinite t => if s = t then .infinite s else .unknown true
  | .infinite s, _ => .infinite s
  | _, .infinite s => .infinite s

def scale (f : BinaryFormat) (k : Nat) : Quantity → Quantity
  | .finite s m e =>
    let (n, d) := Quantity.fraction m e
    f.round s (k * n) d
  | q => q

def hexValue? (c : Char) : Option Nat :=
  if c.isDigit then some (c.toNat - '0'.toNat)
  else if 'a' ≤ c ∧ c ≤ 'f' then some (c.toNat - 'a'.toNat + 10)
  else if 'A' ≤ c ∧ c ≤ 'F' then some (c.toNat - 'A'.toNat + 10)
  else none

/-- Digits with a point among them, and the rest of a text. -/
def pointed (isDigit : Char → Bool) (cs : List Char) : List Char × List Char × List Char :=
  let whole := cs.takeWhile isDigit
  match cs.drop whole.length with
  | '.' :: rest =>
    let places := rest.takeWhile isDigit
    if whole = [] ∧ places = [] then ([], [], cs) else (whole, places, rest.drop places.length)
  | rest => (whole, [], rest)

/-- The exponent after a letter, and the rest; zero if there is none. -/
def exponent (letter : Char) (cs : List Char) : Int × List Char :=
  match cs with
  | c :: rest =>
    if c.toLower = letter then
      let (negative, digits) :=
        match rest with
        | '-' :: digits => (true, digits)
        | '+' :: digits => (false, digits)
        | digits => (false, digits)
      let (ds, after) := splitDigits digits
      if ds = [] then (0, cs)
      else
        let n : Int := value ds
        (if negative then -n else n, after)
    else (0, cs)
  | [] => (0, [])

/-- An exponent beyond which nothing changes any more. -/
def exponentLimit : Int := 30000

/-- A number in a base with a power of another base, as one of the format. -/
def ofPower (f : BinaryFormat) (negative : Bool) (n base : Nat) (power : Int) : Quantity :=
  let power := max (-exponentLimit) (min power exponentLimit)
  if 0 ≤ power then f.round negative (if n = 0 then 0 else n * base ^ power.toNat) 1
  else f.round negative n (base ^ (-power).toNat)

/-- A text without its sign that stands for no ordinary number. -/
def word? (negative : Bool) (cs : List Char) : Option (Quantity × List Char) :=
  let lower := cs.map Char.toLower
  let starts (s : String) : Bool := s.toList.isPrefixOf lower
  if starts "infinity" then some (.infinite negative, cs.drop 8)
  else if starts "inf" then some (.infinite negative, cs.drop 3)
  else if starts "nan" then
    let rest := cs.drop 3
    match rest with
    | '(' :: inner =>
      let name := inner.takeWhile fun c => c.isAlphanum || c == '_'
      if (inner.drop name.length).head? = some ')' then
        some (.unknown negative, inner.drop (name.length + 1))
      else some (.unknown negative, rest)
    | _ => some (.unknown negative, rest)
  else none

/-- What a text begins with as a number of a format, whether it lies in the range of the format, and
the rest of the text; none if it begins with no number. -/
def read? (f : BinaryFormat) (cs : List Char) : Option (Quantity × Bool × List Char) :=
  let cs := cs.dropWhile fun c => c = ' ' || (9 ≤ c.toNat && c.toNat ≤ 13)
  let (negative, cs) :=
    match cs with
    | '-' :: cs => (true, cs)
    | '+' :: cs => (false, cs)
    | cs => (false, cs)
  match word? negative cs with
  | some (q, rest) => some (q, true, rest)
  | none =>
    let hexDigits : Option (List Char × List Char × List Char) :=
      match cs with
      | '0' :: x :: rest =>
        if x = 'x' ∨ x = 'X' then
          let (whole, places, after) := pointed (fun c => (hexValue? c).isSome) rest
          if whole = [] ∧ places = [] then none else some (whole, places, after)
        else none
      | _ => none
    match hexDigits with
    | some (whole, places, rest) =>
      let n := (whole ++ places).foldl (fun n c => 16 * n + (hexValue? c).getD 0) 0
      let (e, rest) := exponent 'p' rest
      finish n (f.ofPower negative n 2 (e - 4 * places.length)) rest
    | none =>
      let (whole, places, rest) := pointed Char.isDigit cs
      if whole = [] ∧ places = [] then none
      else
        let n := value (whole ++ places)
        let (e, rest) := exponent 'e' rest
        finish n (f.ofPower negative n 10 (e - places.length)) rest
where
  /-- Notes whether the number is in range: neither infinite nor too small for a whole mantissa. -/
  finish (n : Nat) (q : Quantity) (rest : List Char) : Option (Quantity × Bool × List Char) :=
    let inRange :=
      match q with
      | .finite _ m e => n = 0 || e ≠ f.least || 2 ^ (f.bits - 1) ≤ m
      | _ => false
    some (q, inRange, rest)

end BinaryFormat

end TaskQueue.Decimal
