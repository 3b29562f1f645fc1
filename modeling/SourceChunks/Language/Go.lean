import SourceChunks.Parsing.Lexeme
import SourceChunks.Parsing.Run
import SourceChunks.Tree.Query

/-!
# Go

A statement ends at a semicolon or a line feed.  Functions and imports may also end the text
without either; other declarations may not.  In the head of a statement a brace never opens a
composite value.
-/

namespace SourceChunks.Go

open Parsing Parsing.Rule

/-- The symbols of the grammar. -/
inductive Symbol where
  | statement
  | simple
  | block
  | declaration
  | expression
  | head
  | operand
  | headOperand
  | suffixed
  | headSuffixed
  | arguments
  | literalValue
  | type
  | typeArguments
  | typeParameters
  | parameters
  | result
  | name

/-- A rule of the grammar. -/
abbrev R := Rule Symbol

/-- May begin a name. -/
def isStart (c : Char) : Bool := c == '_' || Identifier.isStart c

/-- May stand inside a name. -/
def isInner (c : Char) : Bool := Identifier.isInner c

/-- Blanks and comments. -/
def extra : Scan := Scan.oneOf [Scan.satisfy Scan.isSpace, Scan.lineComment "//", Scan.blockComment]

/-- Words that are never names. -/
def reserved : List String :=
  ["break", "case", "chan", "const", "continue", "default", "defer", "else", "fallthrough", "for",
    "func", "go", "goto", "if", "import", "interface", "map", "package", "range", "return",
    "select", "struct", "switch", "type", "var"]

/-- A keyword. -/
def kw (w : String) : R := token (Scan.keyword isInner w)

/-- A name as a lexeme. -/
def nameScan : Scan := Scan.wordExcept isStart isInner reserved

/-- Any word, where no keyword can stand. -/
def anyWord : Scan := Scan.word isStart isInner

/-- A word in the part of a name. -/
def nameField (kind : String) (word : Scan) : R := field "name" (node kind (token word))

/-! ### Lexemes -/

/-- A string in double quotes, or one between backquotes that may run over several lines. -/
def string : Scan := Scan.orElse
  (Scan.quoted (Scan.escapeOf [Scan.code 'x' 2, Scan.code 'u' 4, Scan.code 'U' 8] ['x', 'u',
    'U']) '"')
  (Scan.seq [Scan.text "`", Scan.many (Scan.noneOf ['`']), Scan.text "`"])

/-- A single character between quotes. -/
def character : Scan := Scan.seq [Scan.text "'",
  Scan.orElse
    (Scan.andThen (Scan.text "\\") (Scan.oneOf [
      Scan.code 'x' 2, Scan.code 'u' 4, Scan.code 'U' 8,
      Scan.seq (List.replicate 3 (Scan.satisfy fun c => '0' ≤ c && c ≤ '7')),
      Scan.satisfy "abfnrtv\\'\"".toList.contains]))
    (Scan.noneOf ['\'', '\\']),
  Scan.text "'"]

/-- Digits of a base, each possibly behind an underscore. -/
def digitsOf (isDigit : Char → Bool) : Scan :=
  Scan.many1 (Scan.andThen (Scan.optional (Scan.text "_")) (Scan.satisfy isDigit))

/-- A number to base sixteen, possibly with a point and an exponent to base two. -/
def hexNumber : Scan :=
  let digits := digitsOf fun c => c.isDigit || "abcdefABCDEF".toList.contains c
  let exponent := Scan.exponent ['p', 'P']
  Scan.andThen (Scan.texts ["0x", "0X"]) (Scan.oneOf [
    Scan.seq [digits, Scan.text ".", Scan.optional digits, exponent],
    Scan.seq [Scan.text ".", digits, exponent],
    Scan.seq [digits, Scan.optional exponent]])

/-- A number to base ten with a point or an exponent. -/
def decimalFraction : Scan :=
  let exponent := Scan.exponent ['e', 'E']
  Scan.oneOf [
    Scan.seq [Scan.digits, Scan.text ".", Scan.optional Scan.digits, Scan.optional exponent],
    Scan.seq [Scan.digits, exponent],
    Scan.seq [Scan.text ".", Scan.digits, Scan.optional exponent]]

/-- A number.  Digits behind a leading zero are to base eight, unless the number is imaginary. -/
def number : Scan :=
  let octal := digitsOf fun c => '0' ≤ c && c ≤ '7'
  Scan.oneOf [
    Scan.andThen (Scan.oneOf [
      hexNumber,
      decimalFraction,
      Scan.andThen (Scan.texts ["0b", "0B"]) (digitsOf fun c => c == '0' || c == '1'),
      Scan.andThen (Scan.texts ["0o", "0O"]) octal]) (Scan.optional (Scan.text "i")),
    Scan.andThen Scan.digits (Scan.text "i"),
    Scan.andThen (Scan.text "0") (Scan.optional octal),
    Scan.digits]

/-- Does a gap hold a line feed outside comments between `/*` and `*/`? -/
def gapBreaksLine (t : Input) (c : Cursor) : Bool :=
  (Scan.seq [Scan.many (Scan.orElse Scan.blockComment (Scan.noneOf ['\n'])), Scan.text "\n"]
    (t.extract c.last c.pos) 0).isSome

/-- The end of a statement. -/
def terminator : R := either (sym ";") (test gapBreaksLine)

/-- Nothing, provided that no line ends here. -/
def unbroken : R := test fun t c => !gapBreaksLine t c

/-- Items in parentheses, one to a line. -/
def group (r : R) : R := parens (seq [manySeq [r, terminator], opt r])

/-! ### Types -/

/-- A dotted name with type arguments. -/
def typeName : R := seq [call .name, optSeq [sym ".", call .name], opt (call .typeArguments)]

/-- A field of a struct. -/
def fieldDeclaration : R := seq [
  either (seq [sepBy1 (call .name) (sym ","), unbroken, call .type])
    (seq [opt (sym "*"), typeName]),
  optSeq [unbroken, token string]]

/-- An element of an interface: a method or a union of types. -/
def interfaceElement : R := either
  (seq [call .name, call .parameters, opt (call .result)])
  (sepBy1 (seq [opt (sym "~"), call .type]) (sym "|"))

/-- Lines between braces, each ended by a semicolon or a line feed. -/
def lines (r : R) : R := braces (seq [manySeq [r, terminator], opt r])

/-- A type. -/
def typeRule : R := oneOf [
  seq [sym "*", call .type],
  parens (call .type),
  seq [sym "[", sym "]", call .type],
  seq [sym "[", either (sym "...") (call .expression), sym "]", call .type],
  seq [kw "map", brackets (call .type), call .type],
  seq [kw "chan", optSeq [unbroken, sym "<-"], call .type],
  seq [sym "<-", kw "chan", call .type],
  seq [kw "func", call .parameters, opt (call .result)],
  seq [kw "struct", lines fieldDeclaration],
  seq [kw "interface", lines interfaceElement],
  typeName]

/-! ### Expressions -/

/-- An operator between two operands. -/
def operator : R := token (Scan.andThen
  (Scan.absent (Scan.texts ["+=", "-=", "*=", "/=", "%=", "&=", "|=", "^=", "<<=", ">>=", "&^=",
    "++", "--"]))
  (Scan.texts ["==", "!=", "<=", ">=", "&&", "||", "<<", ">>", "&^", "+", "-", "*", "/", "%", "&",
    "|", "^", "<", ">"]))

/-- A function without a name. -/
def functionLiteral : R := seq [kw "func", call .parameters, opt (call .result), call .block]

/-- A type that a composite value can begin with, other than a name. -/
def literalType : R := oneOf [
  seq [sym "[", sym "]", call .type],
  seq [sym "[", either (sym "...") (call .expression), sym "]", call .type],
  seq [kw "map", brackets (call .type), call .type],
  seq [kw "struct", lines fieldDeclaration]]

/-- A call that makes a value of a type. -/
def builtinCall : R := seq [either (kw "make") (kw "new"), parens (seq [call .type,
  manySeq [sym ",", call .expression], opt (sym ",")])]

/-- The innermost operands.  `composites` says whether a brace may open a composite value after a
name. -/
def atom (composites : Bool) : R := oneOf [
  token string,
  token character,
  token number,
  functionLiteral,
  seq [literalType, call .literalValue],
  parens (call .expression),
  (if composites then seq [typeName, call .literalValue] else fail),
  builtinCall,
  call .name,
  seq [call .type, ahead (sym "(")]]

/-- What may follow an operand without an operator. -/
def trailer : R := oneOf [
  seq [unbroken, call .arguments],
  seq [sym ".", either (token anyWord) (parens (call .type))],
  seq [unbroken, call .typeArguments, ahead (sym "(")],
  seq [unbroken, brackets (either
    (seq [opt (call .expression), sym ":", opt (call .expression), optSeq [sym ":",
      call .expression]])
    (call .expression))],
  seq [unbroken, call .typeArguments]]

/-- Operands and operators in turn. -/
def operation (operand : R) : R := sepBy1 operand (both unbroken operator)

/-- An element of a composite value, possibly with its key. -/
def element : R :=
  let value : R := either (call .literalValue) (call .expression)
  seq [value, optSeq [sym ":", value]]

/-! ### Statements -/

/-- Expressions with commas between them. -/
def expressions (e : R) : R := sepBy1 e (sym ",")

/-- A statement without blocks of its own; `e` says which expressions may stand in it. -/
def simpleOf (e : R) : R := oneOf [
  seq [expressions e, unbroken, either (sym ":=")
    (token (Scan.oneOf [Scan.texts ["+=", "-=", "*=", "/=", "%=", "&=", "|=", "^=", "<<=", ">>=",
      "&^="],
      Scan.andThen (Scan.text "=") (Scan.absent (Scan.text "="))])), expressions e],
  seq [e, unbroken, syms ["++", "--"]],
  seq [e, unbroken, sym "<-", e],
  e]

/-- A simple statement in a head. -/
def headSimple : R := simpleOf (call .head)

/-- A statement before the condition in a head. -/
def preamble : R := optSeq [opt headSimple, sym ";"]

/-- The statements of a branch. -/
def branch : R := seq [manySeq [call .statement, terminator], opt (call .statement), many (sym ";")]

/-- A `range` clause. -/
def rangeClause : R := seq [
  optSeq [expressions (call .head), either (sym ":=") (symNot "=" ['='])], kw "range", call .head]

/-- A sending or receiving statement. -/
def communication : R := either
  (seq [expressions (call .expression), either (sym ":=") (symNot "=" ['=']), call .expression])
  (simpleOf (call .expression))

/-- Branches between braces, each with the cases it is for. -/
def branches (cases : R) : R :=
  braces (many (seq [either (seq [kw "case", cases]) (kw "default"), sym ":", branch]))

/-- The head of a `switch` over types. -/
def typeSwitchHead : R := seq [optSeq [expressions (call .head), sym ":="], call .head,
  sym ".", parens (kw "type")]

/-- A statement with blocks of its own. -/
def compound : R := oneOf [
  seq [kw "if", preamble, call .head, call .block, optSeq [kw "else",
    either (call .block) (call .statement)]],
  seq [kw "for", oneOf [
    seq [rangeClause, call .block],
    seq [opt headSimple, sym ";", opt (call .head), sym ";", opt headSimple, call .block],
    seq [opt (call .head), call .block]]],
  seq [kw "switch", either
    (seq [preamble, typeSwitchHead, branches (sepBy1 (call .type) (sym ","))])
    (seq [preamble, opt (call .head), branches (expressions (call .expression))])],
  seq [kw "select", branches communication]]

/-- A statement. -/
def statementRule : R := oneOf [
  ahead (sym ";"),
  call .declaration,
  compound,
  call .block,
  seq [either (kw "go") (kw "defer"), call .expression],
  seq [kw "return", optSeq [unbroken, expressions (call .expression)]],
  seq [either (kw "break") (kw "continue"), optSeq [unbroken, call .name]],
  seq [kw "goto", call .name],
  kw "fallthrough",
  seq [call .name, symNot ":" ['='], opt (call .statement)],
  call .simple]

/-! ### Declarations -/

/-- Values given to names. -/
def values : R := seq [symNot "=" ['='], expressions (call .expression)]

/-- A declared constant. -/
def constSpec : R := seq [sepBy1 (token anyWord) (sym ","), optSeq [unbroken, opt (call .type),
  values]]

/-- A declared variable. -/
def varSpec : R := seq [sepBy1 (token anyWord) (sym ","),
  either (seq [unbroken, call .type, opt values]) values]

/-- A declared type: one of its own, or another name for a type. -/
def typeSpec : R := either
  (node "type_alias" (seq [nameField "type_identifier" anyWord, opt (call .typeParameters),
    symNot "=" ['='], call .type]))
  (node "type_spec" (seq [nameField "type_identifier" anyWord, either
    (seq [call .typeParameters, call .type]) (call .type)]))

/-- The declarations that may also stand in a block. -/
def declarationRule : R := oneOf [
  seq [kw "const", either constSpec (group constSpec)],
  seq [kw "var", either varSpec (group varSpec)],
  node "type_declaration" (seq [kw "type", either typeSpec (group typeSpec)])]

/-- The declaration of a function, possibly without a body. -/
def function : R := node "function_declaration" (seq [kw "func", nameField "identifier" anyWord,
  opt (call .typeParameters), field "parameters" (call .parameters), opt (call .result),
  optSeq [unbroken, field "body" (call .block)]])

/-- The declaration of a method, possibly without a body. -/
def method : R := node "method_declaration" (seq [kw "func", field "receiver" (call .parameters),
  nameField "field_identifier" (Scan.wordExcept isStart isInner ["chan", "func", "interface",
    "map", "struct"]), field "parameters" (call .parameters), opt (call .result),
  optSeq [unbroken, field "body" (call .block)]])

/-- What is imported. -/
def importSpec : R := seq [opt (either (sym ".") (call .name)), token string]

/-- A declaration of the outermost level. -/
def topLevel : R := oneOf [
  seq [kw "package", token anyWord],
  seq [kw "import", either importSpec (group importSpec)],
  function,
  method]

/-! ### The grammar -/

/-- The rule of each symbol. -/
def rule : Symbol → R
  | .statement => statementRule
  | .simple => simpleOf (call .expression)
  | .block => node "block" (braces branch)
  | .declaration => declarationRule
  | .expression => operation (call .operand)
  | .head => operation (call .headOperand)
  | .operand => both (many (syms ["-", "+", "!", "^", "*", "&", "<-"])) (call .suffixed)
  | .headOperand => both (many (syms ["-", "+", "!", "^", "*", "&", "<-"])) (call .headSuffixed)
  | .suffixed => both (atom true) (many trailer)
  | .headSuffixed => both (atom false) (many trailer)
  | .arguments => parens (commas (seq [call .expression, opt (sym "...")]))
  | .literalValue => braces (commas element)
  | .type => typeRule
  | .typeArguments => brackets (commas1 (call .type))
  | .typeParameters => brackets (commas1 (seq [sepBy1 (call .name) (sym ","),
      sepBy1 (seq [opt (sym "~"), call .type]) (sym "|")]))
  | .parameters => parens (commas (oneOf [
      seq [sepBy1 (call .name) (sym ","), opt (sym "..."), call .type],
      seq [opt (sym "..."), call .type]]))
  | .result => seq [unbroken, either (call .parameters) (call .type)]
  | .name => token nameScan

/-- **The grammar.** -/
def grammar : Grammar Symbol where
  index := Symbol.ctorIdx
  rule := rule
  gap := gapOf extra
  root := "source_file"
  opening := succeed
  item := oneOf [
    sym ";",
    seq [topLevel, either terminator atEnd],
    seq [call .statement, terminator]]
  unfinished := call .statement

/-- Words of the grammar. -/
def vocabulary : Query.Vocabulary where
  kinds := ["source_file", "function_declaration", "method_declaration", "type_declaration",
    "type_spec",
    "type_alias", "block", "identifier", "field_identifier", "type_identifier"]
  fields := ["name", "body", "parameters", "receiver"]

end SourceChunks.Go
