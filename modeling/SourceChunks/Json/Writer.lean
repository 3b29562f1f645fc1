import SourceChunks.Digest.Hex

/-!
# Writing JSON

Compact JSON as lists of characters: no blanks between tokens, and only the double quote, the
backslash and the characters below U+0020 escaped.
-/

namespace SourceChunks.Json

/-- A character inside a quoted text. -/
def escape (c : Char) : List Char :=
  if c = '"' then ['\\', '"']
  else if c = '\\' then ['\\', '\\']
  else if c = '\x08' then ['\\', 'b']
  else if c = '\x0c' then ['\\', 'f']
  else if c = '\n' then ['\\', 'n']
  else if c = '\r' then ['\\', 'r']
  else if c = '\t' then ['\\', 't']
  else if c.toNat < 0x20 then
    ['\\', 'u', '0', '0', Hex.digit (c.toNat / 16), Hex.digit (c.toNat % 16)]
  else [c]

/-- **A quoted text.** -/
def writeText (s : String) : List Char := '"' :: (s.toList.flatMap escape ++ ['"'])

/-- A number in decimal digits. -/
def writeNat (n : Nat) : List Char := Nat.toDigits 10 n

/-- A truth value. -/
def writeBool (b : Bool) : List Char :=
  if b then ['t', 'r', 'u', 'e'] else ['f', 'a', 'l', 's', 'e']

/-- A value that may be absent. -/
def writeOption (write : α → List Char) : Option α → List Char
  | some a => write a
  | none => ['n', 'u', 'l', 'l']

/-- Items with a comma between two neighbours. -/
def separated : List (List Char) → List Char
  | [] => []
  | [item] => item
  | item :: rest => item ++ ',' :: separated rest

/-- **An array.** -/
def writeList (write : α → List Char) (as : List α) : List Char :=
  '[' :: (separated (as.map write) ++ [']'])

/-- A named field whose value is written already. -/
def member (field : String × List Char) : List Char := writeText field.1 ++ ':' :: field.2

/-- **An object** of named fields whose values are written already. -/
def writeObject (fields : List (String × List Char)) : List Char :=
  '\x7b' :: (separated (fields.map member) ++ ['\x7d'])

/-- A field that is left out if its value is absent. -/
def optionalField (name : String) (write : α → List Char) (value : Option α) :
    List (String × List Char) :=
  (value.map fun a => (name, write a)).toList

end SourceChunks.Json
