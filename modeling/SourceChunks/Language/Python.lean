import SourceChunks.Parsing.Lexeme
import SourceChunks.Parsing.Indentation
import SourceChunks.Parsing.Run
import SourceChunks.Tree.Query

/-!
# Python

Statements in blocks shown by indentation.  Operators are read without regard to their strength,
since only the extent of definitions matters.  A line feed where a statement cannot end is passed
over, as long as the next line is no shallower than the block.
-/

namespace SourceChunks.Python

open Parsing Parsing.Rule

/-- The symbols of the grammar. -/
inductive Symbol where
  | statement
  | simpleStatements
  | suite
  | expression
  | expressions
  | binary
  | primary
  | target
  | targets
  | assigned
  | arguments
  | parameters
  | string
  | hole
  | identifier
  | functionDefinition
  | classDefinition

/-- A rule of the grammar. -/
abbrev R := Rule Symbol

/-- Words that are never names. -/
def reserved : List String :=
  ["False", "None", "True", "and", "as", "assert", "break", "class", "continue", "def", "del",
    "elif", "else", "except", "finally", "for", "from", "global", "if", "import", "in", "is",
    "lambda", "nonlocal", "not", "or", "pass", "raise", "return", "try", "while", "with", "yield"]

/-- May begin a name. -/
def isStart (c : Char) : Bool := c == '_' || Identifier.isStart c

/-- May stand inside a name. -/
def isInner (c : Char) : Bool := Identifier.isInner c

/-- Blanks, comments and joined lines. -/
def extra : Scan :=
  Scan.oneOf [Scan.satisfy (fun c => Scan.isSpace c || c == '\uFEFF' || c == '\u2060' ||
    c == '\u200B'),
    Scan.lineComment "#", Scan.texts ["\\\n", "\\\r\n"]]

/-- A keyword. -/
def kw (w : String) : R := token (Scan.keyword isInner w)

/-- Line ends that are passed over because no statement can end here. -/
def lineEnds : R := many (mark .line)

/-- A keyword after which no statement can end. -/
def kwOn (w : String) : R := both (kw w) lineEnds

/-- A mark after which no statement can end. -/
def symOn (s : String) : R := both (sym s) lineEnds

/-- The equals sign alone. -/
def equals : R := both (symNot "=" ['=']) lineEnds

/-- A name where no keyword can stand: any word. -/
def anyName : R := node "identifier" (token (Scan.word isStart isInner))

/-- The name of an argument: a word that begins no expression by itself. -/
def argumentName : R :=
  node "identifier" (token (Scan.wordExcept isStart isInner ["lambda", "not", "None", "True",
    "False"]))

/-! ### Lexemes -/

/-- A number. -/
def number : R := token (Scan.andThen (Scan.oneOf [
  Scan.based,
  Scan.seq [Scan.digits, Scan.optional (Scan.andThen (Scan.text ".") (Scan.optional Scan.digits)),
    Scan.optional (Scan.exponent ['e', 'E'])],
  Scan.seq [Scan.text ".", Scan.digits, Scan.optional (Scan.exponent ['e', 'E'])]])
  (Scan.optional (Scan.satisfy "jJlL".toList.contains)))

/-- The quotes, longest first. -/
def quotes : List String := ["\"\"\"", "'''", "\"", "'"]

/-- A character of a string in the given quotes that neither ends it nor breaks its line. -/
def stringChar (quote : String) : Scan :=
  Scan.seq [Scan.absent (Scan.text quote),
    if quote.length == 1 then Scan.absent (Scan.text "\n") else Scan.empty, Scan.any]

/-- A string without holes. -/
def plainString (quote : String) : R := token (Scan.seq [
  Scan.many (Scan.satisfy "bBrRuU".toList.contains), Scan.text quote,
  Scan.many (Scan.orElse Scan.escaped (stringChar quote)), Scan.text quote])

/-- The text between the holes of a formatted string. -/
def holeFreeText (quote : String) : Scan := Scan.many1 (Scan.oneOf [
  Scan.texts ["\x7b\x7b", "\x7d\x7d"],
  Scan.seq [Scan.text "\\N\x7b", Scan.through (Scan.text "\x7d")],
  Scan.seq [Scan.text "\\", Scan.noneOf ['\x7b', '\x7d']],
  Scan.seq [Scan.absent (Scan.texts ["\x7b", "\x7d"]), stringChar quote]])

/-- A string with holes that hold code. -/
def formattedString (quote : String) : R := seq [
  glued (Scan.seq [Scan.many (Scan.satisfy "bBrRuU".toList.contains),
    Scan.satisfy "fF".toList.contains,
    Scan.many (Scan.satisfy "bBrRuUfF".toList.contains), Scan.text quote]),
  many (either (glued (holeFreeText quote)) (call .hole)),
  sym quote]

/-! ### Expressions -/

/-- Operators that also assign. -/
def assigning : Scan :=
  Scan.texts ["+=", "-=", "*=", "/=", "@=", "//=", "%=", "**=", ">>=", "<<=", "&=", "^=", "|="]

/-- An operator between two operands. -/
def operator : R := oneOf [
  token (Scan.andThen (Scan.absent assigning)
    (Scan.texts ["**", "//", "<<", ">>", "<=", ">=", "==", "!=", "<>", "+", "-", "*", "/", "%", "@",
      "&", "|", "^", "<", ">"])),
  kw "and", kw "or", kw "in", seq [kw "not", kw "in"], seq [kw "is", opt (kw "not")]]

/-- An expression, or one whose elements are spread. -/
def item : R := seq [opt (sym "*"), call .expression]

/-- The clauses after the element of a comprehension. -/
def clauses : R := seq [
  ahead (either (kw "for") (kw "async")),
  many1 (oneOf [
    seq [opt (kw "async"), kw "for", call .targets, kw "in", commas1 (call .expression)],
    seq [kw "if", call .expression]])]

/-- A value that `yield` hands out. -/
def yielded : R := seq [kw "yield", either (seq [kw "from", call .expression])
  (opt (call .expressions))]

/-- An element of a list, tuple or set, or of a subscript. -/
def slice : R := oneOf [
  seq [opt (call .expression), sym ":", opt (call .expression),
    optSeq [sym ":", opt (call .expression)]],
  item]

/-- A key with its value, or a dictionary that is spread. -/
def pair : R := either (seq [sym "**", call .expression])
  (seq [call .expression, sym ":", call .expression])

/-- The innermost operands. -/
def atom : R := oneOf [
  many1 (call .string),
  number,
  sym "...",
  parens (oneOf [yielded, seq [item, clauses], commas item]),
  brackets (oneOf [seq [item, clauses], commas item]),
  braces (oneOf [seq [pair, clauses], seq [item, clauses], commas1 pair, commas1 item, succeed]),
  kw "None", kw "True", kw "False",
  call .identifier]

/-- What may follow an operand without an operator. -/
def trailer : R := oneOf [
  call .arguments,
  brackets (commas1 slice),
  seq [symOn ".", anyName]]

/-- A parameter of a function; `annotated` says whether it may carry a type. -/
def parameter (annotated : Bool) : R :=
  let typed : R := if annotated then optSeq [sym ":", item] else succeed
  oneOf [
    seq [sym "**", anyName, typed],
    seq [sym "*", opt anyName, typed],
    sym "/",
    seq [anyName, typed, optSeq [equals, call .expression]],
    seq [parens (call .targets), optSeq [equals, call .expression]]]

/-- Type parameters of a definition. -/
def typeParameters : R := brackets (commas1 (seq [opt (syms ["**", "*"]), call .expression,
  optSeq [sym ":", call .expression], optSeq [equals, call .expression]]))

/-! ### Statements -/

/-- A dotted name. -/
def dotted : R := sepBy1 (call .identifier) (symOn ".")

/-- Imported names. -/
def imported : R := commas1 (seq [sepBy1 anyName (symOn "."), optSeq [kwOn "as", anyName]])

/-- A statement on one line. -/
def simple : R := oneOf [
  seq [kwOn "import", imported],
  seq [kwOn "from", either (seq [many1 (sym "."), opt dotted]) dotted, kwOn "import",
    oneOf [sym "*", parens imported, imported]],
  seq [kw "print", sym ">>", commas1 (call .expression)],
  seq [kw "print", ahead (oneOf [call .string, number, call .identifier]),
    commas1 (call .expression)],
  seq [kw "exec", ahead (oneOf [call .string, call .identifier]), call .primary,
    optSeq [kw "in", commas1 (call .expression)]],
  seq [kwOn "assert", sepBy1 (call .expression) (symOn ",")],
  seq [kw "return", opt (call .expressions)],
  seq [kwOn "del", call .expressions],
  seq [kw "raise", opt (call .expressions), optSeq [kwOn "from", call .expression]],
  kw "pass", kw "break", kw "continue",
  seq [either (kwOn "global") (kwOn "nonlocal"), sepBy1 (call .identifier) (symOn ",")],
  seq [kw "type", ahead (call .identifier), call .expression, equals, call .expression],
  seq [call .targets, token assigning, lineEnds, either yielded (call .expressions)],
  seq [call .targets, sym ":", item, optSeq [equals, call .assigned]],
  seq [call .targets, equals, call .assigned],
  yielded,
  call .expressions]

/-- What follows a colon that opens a block. -/
def body : R := both (sym ":") (field "body" (call .suite))

/-- The `else` part of a statement. -/
def elsePart : R := optSeq [kw "else", body]

/-- The `finally` part of a statement. -/
def finallyPart : R := seq [kw "finally", body]

/-- A decorator and the line end after it. -/
def decorator : R := node "decorator" (seq [sym "@", call .expression, mark .line])

/-- One branch of a `match` statement. -/
def caseClause : R :=
  node "case_clause" (seq [kw "case", commas1 item, optSeq [kw "if", call .expression], body])

/-- A statement with blocks of its own. -/
def compound : R := oneOf [
  call .functionDefinition,
  call .classDefinition,
  node "decorated_definition" (seq [many1 decorator,
    field "definition" (either (call .functionDefinition) (call .classDefinition))]),
  node "if_statement" (seq [kwOn "if", call .expression, body,
    manySeq [kwOn "elif", call .expression, body], elsePart]),
  node "for_statement" (seq [opt (kw "async"), kwOn "for", call .targets, kwOn "in",
    call .expressions, body, elsePart]),
  node "while_statement" (seq [kwOn "while", call .expression, body, elsePart]),
  node "try_statement" (seq [kw "try", body, either
    (seq [many1 (seq [kw "except", opt (sym "*"),
      optSeq [call .expression, optSeq [sym ",", call .expression]], body]), elsePart,
        opt finallyPart])
    finallyPart]),
  node "with_statement" (seq [opt (kw "async"), kwOn "with", commas1 (call .expression), body]),
  node "match_statement" (seq [kw "match", commas1 item, sym ":",
    either (seq [mark .indent, node "block" (seq [many caseClause, mark .dedent])]) (mark .line)])]

/-- The rule of each symbol. -/
def rule : Symbol → R
  | .statement => either compound (call .simpleStatements)
  | .simpleStatements => seq [sepBy1 simple (sym ";"), opt (sym ";"), mark .line]
  | .suite => oneOf [
      seq [mark .indent, node "block" (seq [many (call .statement), mark .dedent])],
      node "block" (call .simpleStatements),
      node "block" (mark .line)]
  | .expression => oneOf [
      seq [kwOn "lambda", commas (parameter false), sym ":", call .expression],
      seq [call .identifier, symOn ":=", call .expression],
      seq [call .binary, optSeq [kwOn "if", call .binary, kwOn "else", call .expression],
        manySeq [kwOn "as", call .target]]]
  | .expressions => commas1 item
  | .binary =>
      let operand : R := seq [
        many (oneOf [kwOn "not", seq [kw "await", absent (sym "(")], syms ["-", "+", "~"]]),
        call .primary]
      sepBy1 operand (both operator lineEnds)
  | .primary => both atom (many trailer)
  | .target => seq [opt (sym "*"), oneOf [
      seq [atom, many1 (seq [many (call .arguments),
        many1 (either (brackets (commas1 slice)) (seq [symOn ".", anyName]))]),
        absent (call .arguments)],
      call .identifier,
      parens (opt (call .targets)),
      brackets (opt (call .targets))]]
  | .targets => commas1 (call .target)
  | .assigned => oneOf [
      seq [call .targets, equals, call .assigned],
      seq [call .targets, token assigning, lineEnds, either yielded (call .expressions)],
      yielded,
      call .expressions]
  | .arguments => parens (oneOf [
      seq [call .expression, clauses],
      commas (oneOf [
        seq [syms ["**", "*"], call .expression],
        seq [argumentName, equals, call .expression],
        call .expression])])
  | .parameters => node "parameters" (parens (commas (parameter true)))
  | .string => node "string" (oneOf (quotes.map formattedString ++ quotes.map plainString))
  | .hole => seq [sym "\x7b", either yielded (call .expressions), opt (symNot "=" ['=']),
      opt (token (Scan.andThen (Scan.text "!") (Scan.satisfy Char.isLower))),
      optSeq [glued (Scan.text ":"),
        many (either
          (glued (Scan.run1 fun c => !(['\x7b', '\x7d', '\n'].contains c)))
          (call .hole))],
      glued (Scan.text "\x7d")]
  | .identifier => node "identifier" (token (Scan.wordExcept isStart isInner reserved))
  | .functionDefinition => node "function_definition" (seq [opt (kw "async"), kwOn "def",
      field "name" anyName, opt typeParameters, field "parameters" (call .parameters),
      optSeq [symOn "->", call .expression], body])
  | .classDefinition => node "class_definition" (seq [kwOn "class", field "name" anyName,
      opt typeParameters, opt (call .arguments), body])

/-- **The grammar.** -/
def grammar : Grammar Symbol where
  index := Symbol.ctorIdx
  rule := rule
  gap := gapOf extra
  root := "module"
  opening := succeed
  item := call .statement
  layout := Indentation.layout isInner

/-- Words of the grammar. -/
def vocabulary : Query.Vocabulary where
  kinds := ["module", "block", "function_definition", "class_definition", "decorated_definition",
    "decorator", "if_statement", "for_statement", "while_statement", "try_statement",
    "with_statement", "match_statement", "case_clause", "parameters", "string", "identifier"]
  fields := ["name", "body", "parameters", "definition"]

end SourceChunks.Python
