import SourceChunks.Parsing.Rule
import SourceChunks.Text.Identifier

/-!
# Lexemes that many languages share

Blanks, comments, quoted text and numbers, and the gap that a choice of blanks and comments
makes.
-/

namespace SourceChunks.Parsing

namespace Scan

/-- ASCII blanks and line ends. -/
def isSpace (c : Char) : Bool :=
  c == ' ' || c == '\n' || c == '\t' || c == '\r' || c == '\x0b' || c == '\x0c'

/-- A comment from `opener` to the end of the line. -/
def lineComment (opener : String) : Scan := andThen (text opener) restOfLine

/-- A comment from `/*` to the next `*/`. -/
def blockComment : Scan := andThen (text "/*") (through (text "*/"))

/-- A backslash and the character after it. -/
def escaped : Scan := andThen (text "\\") any

/-- A character that is none of the given ones. -/
def noneOf (cs : List Char) : Scan := satisfy fun c => !cs.contains c

/-- A digit to base sixteen. -/
def hexDigit : Scan := satisfy fun c => c.isDigit || "abcdefABCDEF".toList.contains c

/-- A letter and the code of a character, in `n` digits to base sixteen. -/
def code (letter : Char) (n : Nat) : Scan :=
  andThen (satisfy (· == letter)) (seq (List.replicate n hexDigit))

/-- The code of a character between braces. -/
def bracedCode : Scan := seq [text "u\x7b", many1 hexDigit, text "\x7d"]

/-- A backslash with what it takes along: a code, a line end, or a character that begins no code. -/
def escapeOf (codes : List Scan) (letters : List Char) : Scan :=
  andThen (text "\\") (oneOf (codes ++ [text "\r\n", noneOf letters]))

/-- Text between two equal quotes on one line. -/
def quoted (escape : Scan) (quote : Char) : Scan :=
  seq [satisfy (· == quote), many (orElse escape (noneOf [quote, '\\', '\n'])),
    satisfy (· == quote)]

/-- Text between two equal quotes on one line that holds at least one character. -/
def quoted1 (escape : Scan) (quote : Char) : Scan :=
  andThen (absent (chars [quote, quote])) (quoted escape quote)

/-- Decimal digits with underscores between them. -/
def digits : Scan := andThen (satisfy Char.isDigit) (many (satisfy fun c => c.isDigit || c == '_'))

/-- An exponent with the given letters. -/
def exponent (letters : List Char) : Scan :=
  seq [satisfy letters.contains, optional (satisfy fun c => c == '+' || c == '-'), digits]

/-- A number with a base mark such as `0x`; digits and underscores follow. -/
def based : Scan :=
  seq [text "0", satisfy "xXoObB".toList.contains, many1 (satisfy fun c => c.isAlphanum ||
    c == '_')]

/-- A word of the given letters. -/
def word (isStart isInner : Char → Bool) : Scan :=
  andThen (satisfy isStart) (many (satisfy isInner))

/-- A given word that no further letter continues. -/
def keyword (isInner : Char → Bool) (w : String) : Scan :=
  andThen (text w) (absent (satisfy isInner))

/-- A word that is none of the given ones. -/
def wordExcept (isStart isInner : Char → Bool) (reserved : List String) : Scan :=
  andThen (absent (oneOf (reserved.map (keyword isInner)))) (word isStart isInner)

end Scan

/-- The place after all blanks and comments that begin at a place. -/
def gapOf (extra : Scan) (t : Input) (i : Nat) : Nat := Scan.repeated extra t (t.size - i) i

end SourceChunks.Parsing
