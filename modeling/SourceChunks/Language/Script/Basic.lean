import SourceChunks.Parsing.Lexeme
import SourceChunks.Parsing.Run
import SourceChunks.Tree.Query

/-!
# Scripts: dialects, symbols and lexemes

JavaScript and the two forms of TypeScript share one grammar.  A dialect says whether types are
written and whether markup may stand in expressions.
-/

namespace SourceChunks.Script

open Parsing Parsing.Rule

/-- **A dialect.** -/
inductive Dialect where
  | javascript
  | typescript
  /-- TypeScript with markup in expressions. -/
  | tsx
deriving DecidableEq, Repr

/-- Are types written? -/
def Dialect.hasTypes : Dialect → Bool
  | .javascript => false
  | .typescript | .tsx => true

/-- May markup stand in expressions? -/
def Dialect.hasMarkup : Dialect → Bool
  | .typescript => false
  | .javascript | .tsx => true

/-- The symbols of the grammar. -/
inductive Symbol where
  | statement
  | declaration
  | block
  | expression
  | expressions
  | binary
  | unary
  | suffixed
  | atom
  | arguments
  | arrowFunction
  | functionTail
  | pattern
  | parameters
  | classBody
  | method
  | object
  | markup
  | decorator
  | type
  | typePrimary
  | typeArguments
  | typeParameters
  | objectType
  | identifier

/-- A rule of the grammar. -/
abbrev R := Rule Symbol

/-! ### Lexemes -/

/-- Blanks of a script, wider than ASCII. -/
def isBlank (c : Char) : Bool :=
  Scan.isSpace c || ['\u00A0', '\u1680', '\u2028', '\u2029', '\u202F', '\u205F', '\u2060', '\u200B',
    '\u3000', '\uFEFF'].contains c || (0x2000 ≤ c.toNat && c.toNat ≤ 0x200A)

/-- May stand inside a name: every character but blanks, controls and punctuation. -/
def isInner (c : Char) : Bool :=
  !(c.toNat < 0x20 || isBlank c ||
    ":;`\"'@#.,|^&<=>+-*/\\%?!~()[]\x7b\x7d".toList.contains c)

/-- May begin a name. -/
def isStart (c : Char) : Bool := isInner c && !c.isDigit

/-- Characters up to the end of the line. -/
def restOfLine : Scan := Scan.many (Scan.noneOf ['\n', '\r', '\u2028', '\u2029'])

/-- Blanks and comments. -/
def extra : Scan := Scan.oneOf [Scan.satisfy isBlank,
  Scan.andThen (Scan.text "//") restOfLine, Scan.blockComment]

/-- A comment as in pages, which only stands where a statement may begin. -/
def pageComment : Scan := Scan.andThen (Scan.texts ["<!--", "-->"]) restOfLine

/-- Words that are never names. -/
def reserved : List String :=
  ["break", "case", "catch", "class", "const", "continue", "debugger", "default", "delete", "do",
    "else", "export", "extends", "false", "finally", "for", "function", "if", "import", "in",
    "instanceof", "new", "null", "return", "super", "switch", "this", "throw", "true", "try",
    "typeof", "var", "void", "while", "with", "yield"]

/-- A keyword. -/
def kw (w : String) : R := token (Scan.keyword isInner w)

/-- Any word, reserved or not. -/
def anyWord : Scan := Scan.word isStart isInner

/-- A number. -/
def number : Scan := Scan.andThen (Scan.oneOf [
  Scan.based,
  Scan.seq [Scan.digits, Scan.optional (Scan.andThen (Scan.text ".") (Scan.optional Scan.digits)),
    Scan.optional (Scan.exponent ['e', 'E'])],
  Scan.seq [Scan.text ".", Scan.digits, Scan.optional (Scan.exponent ['e', 'E'])]])
  (Scan.optional (Scan.text "n"))

/-- A backslash with what it takes along. -/
def escape : Scan := Scan.escapeOf [Scan.code 'x' 2, Scan.code 'u' 4, Scan.bracedCode] ['x', 'u']

/-- A string in either kind of quotes. -/
def string : Scan := Scan.orElse (Scan.quoted escape '"') (Scan.quoted escape '\'')

/-- A regular expression: slashes inside brackets do not end it. -/
def regex : Scan := Scan.seq [
  Scan.text "/", Scan.absent (Scan.texts ["/", "*"]),
  Scan.many1 (Scan.oneOf [
    Scan.andThen (Scan.text "\\") (Scan.noneOf ['\n']),
    Scan.seq [Scan.text "[",
      Scan.many (Scan.orElse (Scan.andThen (Scan.text "\\") (Scan.noneOf ['\n']))
        (Scan.noneOf [']', '\\', '\n'])),
      Scan.text "]"],
    Scan.noneOf ['/', '\\', '[', '\n']]),
  Scan.text "/", Scan.many (Scan.satisfy Char.isLower)]

/-- Text with holes that hold code. -/
def template : R := seq [
  glued (Scan.text "`"),
  many (either
    (glued (Scan.many1 (Scan.oneOf [escape,
      Scan.andThen (Scan.absent (Scan.text "$\x7b")) (Scan.noneOf ['`', '\\'])])))
    (seq [sym "$\x7b", call .expressions, glued (Scan.text "\x7d")])),
  sym "`"]

/-! ### Statement ends

A statement ends at a semicolon.  One is understood at the end of the text, before a closing brace,
and at a line feed unless the next line begins with something that continues an expression. -/

/-- Does a semicolon go without saying before what comes at a place on a new line? -/
def startsAfresh (t : Input) (i : Nat) : Bool :=
  match t.char? i with
  | none => true
  | some c =>
    if "`,:;*%><=[(?^|&/".toList.contains c then false
    else if c == '.' then ((t.char? (i + 1)).map Char.isDigit).getD false
    else if c == '+' || c == '-' then t.char? (i + 1) = some c
    else if c == '!' then t.char? (i + 1) != some '='
    else (Scan.oneOf [Scan.keyword Char.isAlpha "in",
      Scan.keyword Char.isAlpha "instanceof"] t i).isNone

/-- Does a gap hold a line end? -/
def gapBreaksLine (t : Input) (c : Cursor) : Bool :=
  (t.extract c.last c.pos).any fun g =>
    g == .char '\n' || g == .char '\u2028' || g == .char '\u2029'

/-- A semicolon goes without saying. -/
def understood : R := test fun t c =>
  decide (t.size ≤ c.pos) || t.char? c.pos = some '\x7d' ||
    (gapBreaksLine t c && startsAfresh t c.pos)

/-- The end of a statement. -/
def semicolon : R := either (sym ";") understood

/-- No line feed before this place. -/
def unbroken : R := test fun t c => !gapBreaksLine t c

/-- The equals sign alone. -/
def equals : R := symNot "=" ['=', '>']

/-- An initial value. -/
def initializer : R := both equals (call .expression)

/-- What only stands where types are written. -/
def typed (d : Dialect) (r : R) : R := if d.hasTypes then r else fail

/-- What may stand where types are written, and nowhere else. -/
def typedOpt (d : Dialect) (r : R) : R := if d.hasTypes then opt r else succeed

/-- The name of a member: a word, a private word, a string, a number or an expression. -/
def memberName : R := oneOf [
  node "property_identifier" (token anyWord),
  node "private_property_identifier" (token (Scan.andThen (Scan.text "#") anyWord)),
  node "string" (token string),
  node "number" (token number),
  node "computed_property_name" (brackets (call .expression))]

/-- A name in the part of a name: any word but those that may stand in its place. -/
def nameOf (kind : String) (others : List String) : R :=
  field "name" (node kind (token (Scan.wordExcept isStart isInner others)))

end SourceChunks.Script
