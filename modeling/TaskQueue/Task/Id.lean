import TaskQueue.Json.Printer
import TaskQueue.Json.Token

/-!
# Task identifiers

An identifier has 128 bits.  It is written as 32 lower-case hexadecimal digits in groups of 8, 4,
4, 4 and 12, so that the order of texts is the order of identifiers.
-/

namespace TaskQueue

structure TaskId where
  bits : BitVec 128
  deriving DecidableEq, Repr, Inhabited

namespace TaskId

/-- The last `count` hexadecimal digits of a number, most significant first. -/
def hexPlaces : Nat → Nat → List Char
  | 0, _ => []
  | count + 1, n => hexPlaces count (n / 16) ++ [Json.hexDigit (n % 16)]

def chars (id : TaskId) : List Char :=
  let n := id.bits.toNat
  hexPlaces 8 (n / 16 ^ (24 : Nat)) ++ '-' :: hexPlaces 4 (n / 16 ^ (20 : Nat))
    ++ '-' :: hexPlaces 4 (n / 16 ^ (16 : Nat)) ++ '-' :: hexPlaces 4 (n / 16 ^ (12 : Nat))
    ++ '-' :: hexPlaces 12 n

def text (id : TaskId) : String :=
  String.ofList id.chars

/-- Whether `a` comes before `b`. -/
def before (a b : TaskId) : Bool :=
  a.bits.toNat < b.bits.toNat

def hexNumber? (digits : List Char) : Option Nat :=
  digits.foldlM (fun n c => (Json.hexValue? c).map (16 * n + ·)) 0

/-- The identifier with 32 digits. -/
def ofDigits? (digits : List Char) : Option TaskId :=
  if digits.length = 32 then (hexNumber? digits).map fun n => ⟨BitVec.ofNat 128 n⟩ else none

def ofHyphenated? (cs : List Char) : Option TaskId :=
  if cs.length = 36 ∧ cs[8]? = some '-' ∧ cs[13]? = some '-' ∧ cs[18]? = some '-' ∧
      cs[23]? = some '-' then
    ofDigits? (cs.take 8 ++ (cs.drop 9).take 4 ++ (cs.drop 14).take 4 ++ (cs.drop 19).take 4
      ++ cs.drop 24)
  else none

/-- Reads 32 digits, or digits in groups, these also between braces or after `urn:uuid:`. -/
def ofChars? (cs : List Char) : Option TaskId :=
  if cs.length = 32 then ofDigits? cs
  else if cs.length = 36 then ofHyphenated? cs
  else if cs.length = 38 ∧ cs.head? = some '\x7b' ∧ cs.getLast? = some '\x7d' then
    ofHyphenated? ((cs.drop 1).take 36)
  else if (cs.take 9).map Char.toLower = ['u', 'r', 'n', ':', 'u', 'u', 'i', 'd', ':'] then
    ofHyphenated? (cs.drop 9)
  else none

/-- The identifier that a text stands for. -/
def ofText? (s : String) : Option TaskId :=
  ofChars? s.toList

end TaskId

end TaskQueue
