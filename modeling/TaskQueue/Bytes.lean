/-!
# Bytes

What files hold and streams carry.
-/

namespace TaskQueue

abbrev Bytes := List UInt8

namespace Bytes

/-- The UTF-8 bytes of a text. -/
def ofString (s : String) : Bytes :=
  s.toUTF8.data.toList

/-- The UTF-8 bytes of characters. -/
def ofChars (cs : List Char) : Bytes :=
  ofString (String.ofList cs)

/-- The text that bytes are, if they are UTF-8. -/
def text? (bs : Bytes) : Option String :=
  String.fromUTF8? ⟨bs.toArray⟩

/-- The bytes of a text in which each character stands for one byte. -/
def ofLetters (s : String) : Bytes :=
  s.toList.map fun c => UInt8.ofNat c.toNat

/-- Bytes as a text with a character for each byte. -/
def letters (bs : Bytes) : String :=
  String.ofList (bs.map fun b => Char.ofNat b.toNat)

end Bytes

end TaskQueue
