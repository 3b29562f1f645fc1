import SourceChunks.Parsing.Lexeme
import SourceChunks.Parsing.Run
import SourceChunks.Tree.Query

/-!
# Java

Methods, classes and interfaces become nodes that begin with their modifiers and annotations.
Statements and methods may stand at the outermost level too.
-/

namespace SourceChunks.Java

open Parsing Parsing.Rule

/-- The symbols of the grammar. -/
inductive Symbol where
  | statement
  | block
  | declaration
  | member
  | classBody
  | modifiers
  | marker
  | type
  | typeArguments
  | typeParameters
  | parameters
  | expression
  | binary
  | unary
  | suffixed
  | arguments
  | arrayInitializer
  | switchBlock
  | casePattern
  | name

/-- A rule of the grammar. -/
abbrev R := Rule Symbol

/-- May begin a name. -/
def isStart (c : Char) : Bool := c == '_' || c == '$' || Identifier.isStart c

/-- May stand inside a name. -/
def isInner (c : Char) : Bool := c == '$' || Identifier.isInner c

/-- Blanks and comments. -/
def extra : Scan := Scan.oneOf [Scan.satisfy Scan.isSpace, Scan.lineComment "//", Scan.blockComment]

/-- Types that are no classes. -/
def primitives : List String :=
  ["byte", "short", "int", "long", "char", "float", "double", "boolean", "void"]

/-- Words that are never names. -/
def reserved : List String := primitives ++
  ["abstract", "assert", "break", "case", "catch", "class", "continue", "default", "do", "else",
    "enum", "extends", "final", "finally", "for", "if", "implements", "import", "instanceof",
    "interface", "native", "new", "null", "package", "private", "protected", "public", "return",
    "static", "strictfp", "super", "switch", "synchronized", "this", "throw", "throws", "transient",
    "true", "false", "try", "volatile", "while"]

/-- A keyword. -/
def kw (w : String) : R := token (Scan.keyword isInner w)

/-- A name as a lexeme. -/
def nameScan : Scan := Scan.wordExcept isStart isInner reserved

/-- A name where no keyword can stand: any word. -/
def anyName : R := token (Scan.word isStart isInner)

/-- A name in the part of a name. -/
def nameField : R := field "name" (node "identifier" anyName)

/-- A number. -/
def number : Scan := Scan.andThen (Scan.oneOf [
  Scan.seq [Scan.texts ["0x", "0X"], Scan.many (Scan.satisfy fun c => c.isAlphanum || c == '_'),
    Scan.text ".", Scan.many (Scan.satisfy fun c => c.isAlphanum || c == '_'),
    Scan.optional (Scan.andThen (Scan.satisfy fun c => c == '+' || c == '-') Scan.digits)],
  Scan.based,
  Scan.seq [Scan.digits, Scan.optional (Scan.seq [Scan.text ".", Scan.absent (Scan.satisfy isStart),
      Scan.optional Scan.digits]), Scan.optional (Scan.exponent ['e', 'E'])],
  Scan.seq [Scan.text ".", Scan.digits, Scan.optional (Scan.exponent ['e', 'E'])]])
  (Scan.optional (Scan.satisfy "lLfFdD".toList.contains))

/-- A backslash with what it takes along. -/
def escape : Scan := Scan.escapeOf [Scan.code 'x' 2, Scan.code 'u' 4, Scan.bracedCode] ['x', 'u']

/-- A string, which nothing but its quote ends. -/
def string : Scan := Scan.seq [Scan.text "\"",
  Scan.many (Scan.orElse escape (Scan.noneOf ['"', '\\'])), Scan.text "\""]

/-- A string over several lines. -/
def textBlock : Scan := Scan.seq [Scan.text "\"\"\"",
  Scan.many (Scan.orElse Scan.escaped (Scan.andThen (Scan.absent (Scan.text "\"\"\"")) Scan.any)),
  Scan.text "\"\"\""]

/-- A dotted name. -/
def dotted : R := sepBy1 (call .name) (symNot "." ['.'])

/-- The equals sign alone. -/
def equals : R := symNot "=" ['=']

/-! ### Expressions -/

/-- Operators that assign. -/
def assigning : Scan := Scan.oneOf [
  Scan.texts ["+=", "-=", "*=", "/=", "&=", "|=", "^=", "%=", "<<=", ">>=", ">>>="],
  Scan.andThen (Scan.text "=") (Scan.absent (Scan.text "="))]

/-- An operator between two operands. -/
def operator : R := token (Scan.andThen (Scan.absent assigning) (Scan.orElse
  (Scan.texts ["==", "!=", ">>>", "<<", ">>", "<=", ">=", "&&", "||", "*", "/", "%", "&", "|", "^",
    "<", ">"])
  (Scan.oneOf [Scan.seq [Scan.text "+", Scan.absent (Scan.text "+")],
    Scan.seq [Scan.text "-", Scan.absent (Scan.texts ["-", ">"])]])))

/-- A function written with an arrow. -/
def lambda : R := seq [
  oneOf [
    call .name,
    parens (commas (call .name)),
    call .parameters],
  sym "->", either (call .block) (call .expression)]

/-- Square brackets after a type. -/
def dims : R := manySeq [many (call .marker), sym "[", sym "]"]

/-- A type in an expression that makes an object or array. -/
def created : R := seq [many (call .marker), either
  (oneOf (primitives.map kw))
  (sepBy1 (seq [many (call .marker), call .name, opt (call .typeArguments)]) (symNot "." ['.']))]

/-- An object or array made by `new`. -/
def newExpression : R := seq [kw "new", opt (call .typeArguments), created, oneOf [
  seq [call .arguments, opt (call .classBody)],
  seq [many1 (seq [many (call .marker), brackets (call .expression)]), dims],
  seq [many1 (seq [many (call .marker), sym "[", sym "]"]), call .arrayInitializer]]]

/-- A type before `::` or `.class` that is no plain name. -/
def typeOperand : R := seq [
  either (oneOf (primitives.map kw)) (sepBy1 (seq [call .name, opt (call .typeArguments)])
    (symNot "." ['.'])),
  dims, either (ahead (sym "::")) (seq [sym ".", kw "class"])]

/-- The innermost operands. -/
def atom : R := oneOf [
  token textBlock,
  token string,
  token (Scan.quoted1 Scan.escaped '\''),
  token number,
  newExpression,
  seq [kw "switch", parens (call .expression), call .switchBlock],
  typeOperand,
  parens (call .expression),
  kw "null", kw "true", kw "false",
  seq [oneOf [kw "this", kw "super", call .name], opt (call .arguments)]]

/-- What may follow an operand without an operator. -/
def trailer : R := oneOf [
  brackets (call .expression),
  seq [sym "::", opt (call .typeArguments), either (kw "new") (call .name)],
  seq [symNot "." ['.'], oneOf [
    newExpression, seq [either (kw "this") (kw "super"), opt (call .arguments)], kw "class",
    seq [opt (call .typeArguments), anyName, opt (call .arguments)]]]]

/-- Parts of a record, in a pattern. -/
def recordPattern : R := seq [call .type, parens (commas (call .casePattern)), opt (call .name)]

/-! ### Declarations -/

/-- Words before a declaration. -/
def modifierWords : List String :=
  ["public", "protected", "private", "abstract", "static", "final", "strictfp", "default",
    "synchronized", "native", "transient", "volatile", "sealed"]

/-- Words and annotations before a declaration. -/
def modifiersRule : R := many (oneOf [
  call .marker,
  token (Scan.oneOf (modifierWords.map (Scan.keyword isInner))),
  sym "non-sealed"])

/-- A variable with its value. -/
def declarator : R := seq [anyName, dims,
  optSeq [equals, either (call .arrayInitializer) (call .expression)]]

/-- The exceptions a method throws. -/
def throwsPart : R := optSeq [kw "throws", sepBy1 (call .type) (sym ",")]

/-- Types after a word. -/
def typesAfter (w : String) : R := optSeq [kw w, sepBy1 (call .type) (sym ",")]

/-- The declaration of a method. -/
def method : R := node "method_declaration" (seq [
  call .modifiers, optSeq [call .typeParameters, many (call .marker)], call .type, nameField,
  field "parameters" (call .parameters), dims, throwsPart,
  either (field "body" (call .block)) (sym ";")])

/-- The declaration of a constructor. -/
def constructor : R := seq [
  call .modifiers, opt (call .typeParameters), call .name, opt (call .parameters), throwsPart,
  call .block]

/-- The declaration of a class. -/
def classDeclaration : R := node "class_declaration" (seq [
  call .modifiers, kw "class", nameField, opt (call .typeParameters), optSeq [kw "extends",
    call .type],
  typesAfter "implements", typesAfter "permits", field "body" (call .classBody)])

/-- The declaration of an interface. -/
def interfaceDeclaration : R := node "interface_declaration" (seq [
  call .modifiers, kw "interface", nameField, opt (call .typeParameters), typesAfter "extends",
  typesAfter "permits", field "body" (call .classBody)])

/-- The declaration of a record. -/
def recordDeclaration : R := seq [
  call .modifiers, kw "record", anyName, opt (call .typeParameters), call .parameters,
  typesAfter "implements", call .classBody]

/-- The declaration of an enumeration. -/
def enumDeclaration : R := seq [
  call .modifiers, kw "enum", anyName, typesAfter "implements",
  braces (seq [
    commas (seq [call .modifiers, call .name, opt (call .arguments), opt (call .classBody)]),
    opt (sym ","), optSeq [sym ";", many (call .member)]])]

/-- The declaration of a kind of annotation. -/
def annotationDeclaration : R := seq [
  call .modifiers, sym "@", kw "interface", anyName,
  braces (many (oneOf [
    seq [call .modifiers, call .type, call .name, sym "(", sym ")", dims,
      optSeq [kw "default", oneOf [call .marker, call .arrayInitializer, call .expression]],
        sym ";"],
    call .member]))]

/-- The rule of declarations of types. -/
def declarationRule : R := oneOf [
  classDeclaration, interfaceDeclaration, recordDeclaration, enumDeclaration, annotationDeclaration]

/-- A member of a class. -/
def memberRule : R := oneOf [
  sym ";",
  call .declaration,
  method,
  constructor,
  seq [call .modifiers, call .type, sepBy1 declarator (sym ","), sym ";"],
  seq [opt (kw "static"), call .block]]

/-! ### Statements -/

/-- A variable declared in a statement. -/
def localVariable : R := seq [call .modifiers, call .type, sepBy1 declarator (sym ","), sym ";"]

/-- Package, import and module declarations. -/
def heading : R := oneOf [
  seq [many (call .marker), kw "package", dotted, sym ";"],
  seq [kw "import", opt (kw "static"), dotted, optSeq [sym ".", sym "*"], sym ";"],
  seq [many (call .marker), opt (kw "open"), kw "module", dotted, braces (many (seq [
    oneOf [kw "requires", kw "exports", kw "opens", kw "uses", kw "provides"],
    many (oneOf [kw "static", kw "transitive", kw "to", kw "with", sym ",", dotted]), sym ";"]))]]

/-- A resource of a `try` statement. -/
def resource : R := either
  (seq [call .modifiers, call .type, call .name, equals, call .expression])
  (call .suffixed)

/-- A statement. -/
def statementRule : R := oneOf [
  sym ";",
  call .block,
  heading,
  call .declaration,
  seq [kw "if", parens (call .expression), call .statement, optSeq [kw "else", call .statement]],
  seq [kw "while", parens (call .expression), call .statement],
  seq [kw "do", call .statement, kw "while", parens (call .expression), sym ";"],
  seq [kw "for", parens (either
    (seq [call .modifiers, call .type, call .name, dims, sym ":", call .expression])
    (seq [either localVariable (seq [opt (sepBy1 (call .expression) (sym ",")), sym ";"]),
      opt (call .expression), sym ";", opt (sepBy1 (call .expression) (sym ","))])),
    call .statement],
  seq [kw "try", opt (parens (seq [sepBy1 resource (sym ";"), opt (sym ";")])), call .block,
    manySeq [kw "catch", parens (seq [call .modifiers, sepBy1 (call .type) (sym "|"), call .name]),
      call .block],
    optSeq [kw "finally", call .block]],
  seq [kw "synchronized", parens (call .expression), call .block],
  seq [kw "return", opt (call .expression), sym ";"],
  seq [kw "throw", call .expression, sym ";"],
  seq [either (kw "break") (kw "continue"), opt (call .name), sym ";"],
  seq [kw "assert", call .expression, optSeq [sym ":", call .expression], sym ";"],
  seq [kw "yield", call .expression, sym ";"],
  seq [kw "switch", parens (call .expression), call .switchBlock],
  seq [call .name, symNot ":" [':'], call .statement],
  localVariable,
  seq [call .expression, sym ";"]]

/-- The label of a branch. -/
def caseLabel : R := either
  (seq [kw "case", sepBy1 (oneOf [kw "default", call .casePattern, call .binary]) (sym ","),
    optSeq [kw "when", call .expression]])
  (kw "default")

/-- The branches of a `switch`, with colons or with arrows. -/
def switchBlockRule : R := braces (either
  (many1 (seq [caseLabel, sym "->",
    oneOf [call .block, seq [kw "throw", call .expression, sym ";"], seq [call .expression,
      sym ";"]]]))
  (many (seq [caseLabel, sym ":", many (call .statement)])))

/-! ### The grammar -/

/-- The rule of each symbol. -/
def rule : Symbol → R
  | .statement => statementRule
  | .block => node "block" (braces (many (call .statement)))
  | .declaration => declarationRule
  | .member => memberRule
  | .classBody => node "class_body" (braces (many (call .member)))
  | .modifiers => modifiersRule
  | .marker => seq [sym "@", absent (kw "interface"), dotted, opt (parens (commas (seq [
      optSeq [call .name, equals],
      oneOf [call .marker, call .arrayInitializer, call .expression]])))]
  | .type => seq [many (call .marker),
      either (oneOf (primitives.map kw))
        (sepBy1 (seq [many (call .marker), call .name, opt (call .typeArguments)])
          (symNot "." ['.'])),
      dims]
  | .typeArguments => seq [sym "<", opt (sepBy1 (either
      (seq [many (call .marker), sym "?", optSeq [either (kw "extends") (kw "super"), call .type]])
      (call .type)) (sym ",")), sym ">"]
  | .typeParameters => seq [sym "<", sepBy1 (seq [many (call .marker), call .name,
      optSeq [kw "extends", sepBy1 (call .type) (sym "&")]]) (sym ","), sym ">"]
  | .parameters => parens (opt (sepBy1 (seq [call .modifiers, call .type,
      oneOf [seq [many (call .marker), sym "...", anyName, dims],
        seq [optSeq [call .name, sym "."], kw "this"],
        seq [anyName, dims]]]) (sym ",")))
  | .expression => either lambda (seq [call .binary, oneOf [
      seq [token assigning, call .expression],
      seq [sym "?", call .expression, sym ":", either lambda (call .expression)],
      succeed]])
  | .binary => seq [call .unary, many (either
      (seq [kw "instanceof", opt (kw "final"),
        either recordPattern (seq [call .type, opt (call .name)])])
      (seq [operator, either lambda (call .unary)]))]
  | .unary => oneOf [
      seq [syms ["++", "--", "+", "-", "!", "~"], call .unary],
      seq [parens (sepBy1 (call .type) (sym "&")), either lambda (call .unary)],
      seq [call .suffixed, many (syms ["++", "--"])]]
  | .suffixed => both atom (many trailer)
  | .arguments => parens (opt (sepBy1 (call .expression) (sym ",")))
  | .arrayInitializer => braces (seq [commas (oneOf [call .marker, call .arrayInitializer,
    call .expression]),
      opt (sym ",")])
  | .switchBlock => switchBlockRule
  | .casePattern => either recordPattern (seq [opt (kw "final"), call .type, call .name])
  | .name => token nameScan

/-- **The grammar.** -/
def grammar : Grammar Symbol where
  index := Symbol.ctorIdx
  rule := rule
  gap := gapOf extra
  root := "program"
  opening := succeed
  item := either method (call .statement)

/-- Words of the grammar. -/
def vocabulary : Query.Vocabulary where
  kinds := ["program", "method_declaration", "class_declaration", "interface_declaration",
    "class_body", "block", "identifier"]
  fields := ["name", "body", "parameters"]

end SourceChunks.Java
