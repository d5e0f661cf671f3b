import TaskQueue.Text.Visible

/-!
# Escaped text

A text between quotes in which every character can be seen: quotes, backslashes and common
controls have a short escape, and other characters that cannot be shown on their own are written by
their code point, in hexadecimal between braces.
-/

namespace TaskQueue.Text

private def hexadecimal (n : Nat) : List Char :=
  Nat.toDigits 16 n

def escape (c : Char) : List Char :=
  if c = '\x00' then ['\\', '0']
  else if c = '\t' then ['\\', 't']
  else if c = '\r' then ['\\', 'r']
  else if c = '\n' then ['\\', 'n']
  else if c = '\\' ∨ c = '"' then ['\\', c]
  else if isVisible c then [c]
  else '\\' :: 'u' :: '\x7b' :: hexadecimal c.toNat ++ ['\x7d']

/-- A text between quotes, escaped. -/
def escaped (s : String) : String :=
  String.ofList ('"' :: s.toList.flatMap escape ++ ['"'])

end TaskQueue.Text
