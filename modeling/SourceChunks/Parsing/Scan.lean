/-!
# Glyphs and scanners

The parser reads *glyphs*: the characters of a text and, between them, the marks that a layout
adds where line structure carries meaning.  Marks take no room in the text.

A *scanner* reads one lexeme: from a place in the input it finds the place after the lexeme.
Scanners are built from classes of characters by sequence, ordered choice and repetition.
-/

namespace SourceChunks.Parsing

/-- What a layout can say between two characters. -/
inductive Mark where
  /-- A logical line ends. -/
  | line
  /-- A block of deeper lines begins. -/
  | indent
  /-- A block of deeper lines ends. -/
  | dedent
deriving DecidableEq, Repr

/-- **One step of the input.** -/
inductive Glyph where
  | char (c : Char)
  | mark (m : Mark)
deriving DecidableEq, Repr

/-- The glyphs of a text. -/
abbrev Input := Array Glyph

namespace Input

/-- The character at a place, if there is one. -/
def char? (t : Input) (i : Nat) : Option Char :=
  match t[i]? with
  | some (.char c) => some c
  | _ => none

/-- The mark at a place, if there is one. -/
def mark? (t : Input) (i : Nat) : Option Mark :=
  match t[i]? with
  | some (.mark m) => some m
  | _ => none

/-- A text without layout. -/
def ofChars (cs : List Char) : Input := (cs.map Glyph.char).toArray

/-- The number of characters before each place, and before the end. -/
def offsets (t : Input) : Array Nat :=
  t.foldl
    (fun acc g => acc.push (acc.back?.getD 0 + match g with | .char _ => 1 | .mark _ => 0)) #[0]

end Input

/-- **A scanner**: the place after the lexeme that begins at a place, if there is one. -/
abbrev Scan := Input → Nat → Option Nat

namespace Scan

/-- The empty lexeme. -/
def empty : Scan := fun _ i => some i

/-- One character of a class. -/
def satisfy (p : Char → Bool) : Scan := fun t i =>
  match t.char? i with
  | some c => if p c then some (i + 1) else none
  | none => none

/-- Any one character. -/
def any : Scan := satisfy fun _ => true

/-- Exactly these characters. -/
def chars : List Char → Scan
  | [], _, i => some i
  | c :: cs, t, i =>
    match t.char? i with
    | some d => if c == d then chars cs t (i + 1) else none
    | none => none

/-- Exactly this text. -/
def text (s : String) : Scan :=
  let cs := s.toList
  fun t i => chars cs t i

/-- One lexeme after another. -/
def andThen (a b : Scan) : Scan := fun t i =>
  match a t i with
  | some j => b t j
  | none => none

/-- The first of two lexemes that is there. -/
def orElse (a b : Scan) : Scan := fun t i =>
  match a t i with
  | some j => some j
  | none => b t i

/-- Nothing, provided that the lexeme is not there. -/
def absent (a : Scan) : Scan := fun t i => if (a t i).isNone then some i else none

/-- A lexeme or nothing. -/
def optional (a : Scan) : Scan := orElse a empty

/-- At most `fuel` lexemes in a row, as long as each moves on. -/
def repeated (a : Scan) (t : Input) : Nat → Nat → Nat
  | 0, i => i
  | fuel + 1, i =>
    match a t i with
    | some j => if i < j then repeated a t fuel j else i
    | none => i

/-- As many lexemes in a row as there are. -/
def many (a : Scan) : Scan := fun t i => some (repeated a t (t.size - i) i)

/-- One or more lexemes in a row. -/
def many1 (a : Scan) : Scan := andThen a (many a)

/-- Lexemes one after the other. -/
def seq (as : List Scan) : Scan := as.foldr andThen empty

/-- The first of some lexemes that is there. -/
def oneOf (as : List Scan) : Scan := as.foldr orElse fun _ _ => none

/-- The first of some texts that is there. -/
def texts (ss : List String) : Scan := oneOf (ss.map text)

/-- Characters up to the end of the line. -/
def restOfLine : Scan := many (satisfy (· != '\n'))

/-- Everything up to and with `close`; nothing if `close` never comes. -/
def through (close : Scan) : Scan := andThen (many (andThen (absent close) any)) close

/-- A run of class `p` that contains at least one character. -/
def run1 (p : Char → Bool) : Scan := many1 (satisfy p)

end Scan

end SourceChunks.Parsing
