import SourceChunks.Parsing.Lexeme
import SourceChunks.Parsing.Run
import SourceChunks.Tree.Query

/-!
# C and C++

Function definitions and classes become nodes that begin with their specifiers and attributes;
`template <…>` and the semicolon after a class stand outside.  A function is told by the shape of
its declarator: a plain name outside classes is an `identifier`, inside a class a
`field_identifier`, and behind a pointer, a reference or a qualified name it is neither.  A
statement that can be read as a declaration is one.
-/

namespace SourceChunks.Cpp

open Parsing Parsing.Rule

/-- The symbols of the grammar. -/
inductive Symbol where
  | item
  | member
  | statement
  | blockItem
  | block
  | classBody
  | specifiers
  | typeSpecifier
  | typeId
  | declarator
  | abstractDeclarator
  | parameters
  | attribute
  | qualified
  | operandName
  | templateArguments
  | templateParameters
  | requirement
  | expression
  | expressions
  | binary
  | closedBinary
  | unary
  | suffixed
  | arguments
  | initializerList
  | name

/-- A rule of the grammar. -/
abbrev R := Rule Symbol

/-! ### Lexemes -/

/-- May begin a name. -/
def isStart (c : Char) : Bool := c == '_' || c == '$' || Identifier.isStart c

/-- May stand inside a name. -/
def isInner (c : Char) : Bool := c == '$' || Identifier.isInner c

/-- A comment to the end of the line; a backslash at the end of a line joins the next one to it. -/
def lineComment : Scan := Scan.andThen (Scan.text "//") (Scan.many (Scan.orElse
  (Scan.andThen (Scan.many1 (Scan.text "\\")) (Scan.orElse (Scan.text "\r\n") Scan.any))
  (Scan.noneOf ['\\', '\n'])))

/-- Blanks, comments and joined lines. -/
def extra : Scan := Scan.oneOf [Scan.satisfy Scan.isSpace, lineComment, Scan.blockComment,
  Scan.texts ["\\\n", "\\\r\n"]]

/-- A backslash with what it takes along. -/
def escape : Scan :=
  Scan.escapeOf [Scan.code 'x' 1, Scan.code 'u' 4, Scan.code 'U' 8] ['x', 'u', 'U']

/-- Types that are no names. -/
def primitives : List String := ["bool", "char", "int", "float", "double", "void", "auto"]

/-- Words that make a type longer, shorter or change its sign. -/
def sizes : List String := ["unsigned", "signed", "long", "short"]

/-- Words before and after a type. -/
def modifierWords : List String :=
  ["static", "extern", "inline", "const", "volatile", "constexpr", "consteval", "constinit",
    "register", "thread_local", "mutable", "virtual", "explicit", "restrict", "__restrict__",
    "__inline", "__inline__", "__forceinline", "__extension__", "_Noreturn", "noreturn", "_Atomic"]

/-- Words that are never names. -/
def reserved : List String := primitives ++ sizes ++ modifierWords ++
  ["alignas", "alignof", "break", "case", "catch", "class", "concept", "continue", "co_await",
    "co_return", "co_yield", "decltype", "default", "delete", "do", "else", "enum", "false", "for",
    "friend", "goto", "if", "namespace", "new", "noexcept", "nullptr", "operator", "requires",
    "return", "sizeof", "static_assert", "struct", "switch", "template", "this", "throw", "true",
    "try", "typedef", "typename", "union", "using", "while"]

/-- Words that are operators between two operands. -/
def wordOperators : List String := ["and", "or", "xor", "bitand", "bitor", "not_eq"]

/-- A keyword. -/
def kw (w : String) : R := token (Scan.keyword isInner w)

/-- One of some keywords. -/
def kws (ws : List String) : R := token (Scan.oneOf (ws.map (Scan.keyword isInner)))

/-- A name as a lexeme. -/
def nameScan : Scan := Scan.wordExcept isStart isInner reserved

/-- A word, reserved or not. -/
def anyWord : R := token (Scan.word isStart isInner)

/-- A name where a declarator stands: any word that cannot stand around a type. -/
def declaredScan : Scan := Scan.wordExcept isStart isInner
  (modifierWords ++ ["operator", "decltype", "alignas", "_Alignas", "__declspec", "__attribute__"])

/-- A raw string: the same word stands before and after its parentheses. -/
def rawString : Scan := fun t i =>
  match Scan.seq [Scan.optional (Scan.texts ["u8", "u", "U", "L"]), Scan.text "R\""] t i with
  | none => none
  | some j =>
    let k := Scan.repeated (Scan.noneOf ['(', ')', '\\', ' ', '\n', '"']) t 16 j
    let delimiter := (t.extract j k).toList.filterMap fun g => match g with
      | .char c => some c
      | .mark _ => none
    Scan.andThen (Scan.text "(") (Scan.through (Scan.chars (')' :: delimiter ++ ['"']))) t k

/-- A string, with its marks before and behind. -/
def string : Scan := Scan.andThen
  (Scan.orElse rawString
    (Scan.andThen (Scan.optional (Scan.texts ["u8", "u", "U", "L"])) (Scan.quoted escape '"')))
  (Scan.many (Scan.satisfy isInner))

/-- A character, with its marks before and behind. -/
def character : Scan := Scan.seq [
  Scan.optional (Scan.texts ["u8", "u", "U", "L"]), Scan.quoted1 escape '\'',
  Scan.many (Scan.satisfy isInner)]

/-- A number with its suffix. -/
def number : Scan := Scan.andThen (Scan.oneOf [
  Scan.seq [Scan.texts ["0x", "0X", "0b", "0B"],
    Scan.many1 (Scan.satisfy fun c => c.isAlphanum || c == '\'' || c == '.')],
  Scan.seq [Scan.optional (Scan.text "."), Scan.satisfy Char.isDigit,
    Scan.many (Scan.oneOf [
      Scan.exponent ['e', 'E'], Scan.satisfy fun c => c.isDigit || c == '.',
      Scan.andThen (Scan.text "'") (Scan.satisfy Char.isDigit)])]])
  (Scan.many (Scan.satisfy isInner))

/-- A line of the preprocessor that begins with a given word, joined lines included. -/
def directive (w : String) : Scan := Scan.seq [Scan.text "#",
  Scan.many (Scan.satisfy fun c => c == ' ' || c == '\t'),
  Scan.keyword isInner w,
  Scan.many (Scan.oneOf [Scan.texts ["\\\n", "\\\r\n"], Scan.blockComment, Scan.noneOf ['\n']])]

/-- Any other line of the preprocessor. -/
def otherDirective : Scan := Scan.seq [
  Scan.absent (Scan.oneOf (["if", "ifdef", "ifndef", "elif", "elifdef", "elifndef", "else",
    "endif"].map directive)),
  Scan.text "#", Scan.many (Scan.oneOf [Scan.texts ["\\\n", "\\\r\n"], Scan.blockComment,
    Scan.noneOf ['\n']])]

/-- Lines of the preprocessor, with items between those that belong together. -/
def preprocessor (r : R) : R := either
  (token otherDirective)
  (seq [
    token (Scan.oneOf (["if", "ifdef", "ifndef"].map directive)), many r,
    manySeq [token (Scan.oneOf (["elif", "elifdef", "elifndef"].map directive)), many r],
    optSeq [token (directive "else"), many r],
    token (directive "endif")])

/-- The equals sign alone. -/
def equals : R := symNot "=" ['=']

/-- A colon alone. -/
def colon : R := symNot ":" [':']

/-! ### Names -/

/-- A pointer or reference sign. -/
def pointer : R := seq [
  either (syms ["*", "&&", "&"]) (seq [
    sepBy1 (seq [call .name, opt (call .templateArguments)]) (seq [sym "::", absent (sym "*")]),
    sym "::", sym "*"]),
  many (either (kws ["const", "volatile", "restrict", "__restrict__", "noexcept"])
    (call .attribute))]

/-- The signs that name operators, longer ones before their beginnings. -/
def operatorSigns : List String :=
  ["<=>", "<<=", ">>=", "->*", "()", "[]", "->", "++", "--", "==", "!=", "<=", ">=", "&&", "||",
    "<<", ">>", "+=", "-=", "*=", "/=", "%=", "^=", "&=", "|=", "+", "-", "*", "/", "%", "^", "&",
    "|", "~", "!", "=", "<", ">", ","]

/-- The name of an operator. -/
def operatorName : R := seq [kw "operator", oneOf [
  syms operatorSigns,
  seq [sym "(", sym ")"], seq [sym "[", sym "]"],
  seq [kws ["new", "delete"], optSeq [sym "[", sym "]"]],
  kw "co_await",
  seq [token (Scan.text "\"\""), call .name],
  seq [call .specifiers, many pointer]]]

/-- The type of an expression. -/
def decltypeOf : R := seq [kw "decltype", parens (either (kw "auto") (call .expressions))]

/-- One part of a qualified name, with the rule of its arguments. -/
def namePart (arguments : R) : R := oneOf [
  operatorName,
  seq [opt (sym "~"), opt (kw "template"), call .name, opt arguments],
  decltypeOf]

/-- A qualified name, with the rule of its arguments. -/
def qualifiedName (arguments : R) : R :=
  seq [opt (sym "::"), sepBy1 (namePart arguments) (seq [sym "::", absent (sym "*")])]

/-- Arguments of a name that is an operand: what follows them begins no operand. -/
def operandArguments : R := both (call .templateArguments) (absent (oneOf [
  both (absent (kws wordOperators)) anyWord,
  symNot "!" ['='], sym "~"]))

/-- An argument between angle brackets. -/
def templateArgument : R := both
  (either (both (call .typeId) (ahead (syms [",", ">", "..."])))
    (seq [call .closedBinary,
      optSeq [sym "?", call .closedBinary, colon, call .closedBinary]]))
  (opt (sym "..."))

/-! ### Types -/

/-- Words, attributes and alignments around a type. -/
def modifier : R := oneOf [
  kws modifierWords,
  call .attribute,
  seq [kws ["alignas", "_Alignas", "__declspec"],
    parens (either (call .typeId) (call .expressions))]]

/-- A base of a class. -/
def baseClause : R := optSeq [colon, sepBy1 (seq [
  many (either (call .attribute) (kws ["public", "private", "protected", "virtual"])),
  call .qualified, opt (sym "...")]) (sym ",")]

/-- A class, struct or union with its body, or its name alone. -/
def recordSpecifier (word kind : String) : R :=
  let plainName : R := both (field "name" (node "type_identifier" (token nameScan)))
    (absent (syms ["::", "<"]))
  node kind (seq [
    kw word, many (either (call .attribute) (seq [kws ["alignas", "__declspec"],
      parens (call .expressions)])),
    either
      (seq [opt (either plainName (call .qualified)), opt (kw "final"), baseClause,
        field "body" (call .classBody)])
      (either plainName (call .qualified))])

/-- An enumeration. -/
def enumSpecifier : R :=
  let base : R := optSeq [colon, call .specifiers]
  let body : R := braces (commas (either (preprocessor fail)
    (seq [call .name, many (call .attribute), optSeq [equals, call .expression]])))
  seq [kw "enum", opt (kws ["class", "struct"]), many (call .attribute), either
    (seq [opt (call .qualified), base, body]) (seq [call .qualified, base])]

/-- The type among the specifiers. -/
def typeSpecifierRule : R := oneOf [
  recordSpecifier "class" "class_specifier",
  recordSpecifier "struct" "struct_specifier",
  recordSpecifier "union" "union_specifier",
  enumSpecifier,
  seq [many1 (seq [kws sizes, many modifier]), opt (kws ["int", "char", "double"])],
  kws primitives,
  decltypeOf,
  seq [kw "typename", call .qualified],
  seq [call .qualified, opt (kw "auto")]]

/-! ### Declarators -/

/-- What `requires` asks for: names, expressions in parentheses and conditions. -/
def constraint : R := sepBy1
  (oneOf [
    kws ["true", "false"],
    parens (call .expressions),
    call .requirement,
    call .qualified])
  (either (syms ["&&", "||"]) (kws ["and", "or"]))

/-- What may follow the parameters of a function. -/
def functionSuffix : R := many (oneOf [
  kws ["const", "volatile", "override", "final"],
  syms ["&&", "&"],
  seq [kw "noexcept", opt (parens (call .expressions))],
  seq [kw "throw", parens (opt (sepBy1 (seq [call .typeId, opt (sym "...")]) (sym ",")))],
  call .attribute,
  seq [sym "->", call .typeId],
  seq [kw "requires", constraint]])

/-- Square brackets of an array. -/
def arraySuffix : R := brackets (opt (call .expression))

/-- What may follow the name in a declarator. -/
def declaratorSuffix : R := many (either (both (call .parameters) functionSuffix) arraySuffix)

/-- A function named by a single word; `kind` is the kind of the word's node. -/
def plainFunction (kind : String) (word : Scan) : R :=
  field "declarator" (node "function_declarator" (seq [
  field "declarator" (both (node kind (token word)) (absent (syms ["::", "<"]))),
  field "parameters" (call .parameters), functionSuffix]))

/-- A declarator. -/
def declaratorRule : R := seq [many pointer, opt (sym "..."), oneOf [
  brackets (commas1 (call .name)),
  seq [either (call .qualified) (token declaredScan), many (call .attribute)],
  parens (seq [opt (call .attribute), call .declarator])], declaratorSuffix]

/-- A declarator without a name. -/
def abstractDeclaratorRule : R := seq [many pointer,
  opt (parens (seq [ahead (syms ["*", "&", "["]), call .abstractDeclarator])),
  many (either (both (call .parameters) functionSuffix) arraySuffix)]

/-- A declarator with its first value. -/
def initDeclarator : R := seq [call .declarator, many (call .attribute), oneOf [
  seq [equals, oneOf [call .initializerList, call .expression, kw "default"]],
  call .initializerList,
  call .arguments,
  succeed]]

/-- A parameter of a function. -/
def parameter : R := either (sym "...") (seq [many modifier, opt (kw "this"), call .specifiers,
  opt (sym "..."),
  either (call .declarator) (call .abstractDeclarator),
  opt (sym "..."), optSeq [equals, either (call .initializerList) (call .expression)]])

/-! ### Expressions -/

/-- Operators that assign. -/
def assigning : Scan := Scan.oneOf [
  Scan.texts ["+=", "-=", "*=", "/=", "%=", "&=", "|=", "^=", "<<=", ">>="],
  Scan.andThen (Scan.text "=") (Scan.absent (Scan.text "="))]

/-- An operator between two operands; `open'` says whether `>` may be one. -/
def operator (open' : Bool) : R := either
  (token (Scan.andThen (Scan.absent assigning) (Scan.orElse
    (Scan.texts (["<=>", "==", "!=", "<=", "&&", "||", "<<", ".*", "->*", "*", "/", "%", "&", "|",
      "^", "<"] ++
      if open' then [">=", ">>", ">"] else []))
    (Scan.oneOf [Scan.andThen (Scan.text "+") (Scan.absent (Scan.text "+")),
      Scan.andThen (Scan.text "-") (Scan.absent (Scan.texts ["-", ">"]))]))))
  (kws wordOperators)

/-- A function without a name. -/
def lambda : R := seq [
  brackets (commas (oneOf [
    seq [syms ["&", "="], absent (call .name)],
    seq [opt (syms ["&", "*"]), either (kw "this") (call .name), opt (sym "..."),
      opt (either (seq [equals, call .expression]) (call .initializerList))],
    seq [opt (sym "&"), sym "...", call .name, optSeq [equals, call .expression]]])),
  opt (call .templateParameters), many (call .attribute), opt (call .parameters),
  manySeq [kws ["mutable", "constexpr", "consteval", "static"]], functionSuffix, call .block]

/-- An object made by `new`. -/
def newExpression : R := seq [
  opt (sym "::"), kw "new", opt (call .arguments),
  either (seq [call .specifiers, many pointer]) (parens (call .typeId)),
  many (brackets (opt (call .expression))), opt (either (call .arguments) (call .initializerList))]

/-- A condition on types. -/
def requiresExpression : R := seq [kw "requires", opt (call .parameters), braces (many (oneOf [
  seq [kw "typename", call .qualified, sym ";"],
  seq [braces (call .expressions), opt (kw "noexcept"), optSeq [sym "->", call .typeId], sym ";"],
  seq [kw "requires", call .expressions, sym ";"],
  seq [call .expressions, sym ";"]]))]

/-- A name among strings that follow each other. -/
def wordInText : R := both (absent (kws wordOperators)) (call .name)

/-- The innermost operands. -/
def atom : R := oneOf [
  seq [many (both wordInText (ahead (either (token string) wordInText))), many1 (token string),
    many (either (token string) wordInText)],
  token character,
  token number,
  kws ["true", "false", "nullptr", "this"],
  lambda,
  parens (either (call .block) (call .expressions)),
  call .requirement,
  newExpression,
  seq [kws ["sizeof", "alignof", "_Alignof", "__alignof__"], opt (sym "..."),
    parens (either (both (call .typeId) (ahead (sym ")"))) (call .expressions))],
  seq [kw "offsetof", parens (seq [call .typeId, sym ",", call .expression])],
  decltypeOf,
  seq [kw "noexcept", parens (call .expressions)],
  seq [opt (kw "typename"), call .operandName, opt (call .initializerList)],
  seq [many1 (kws (primitives ++ sizes)), either (ahead (sym "(")) (call .initializerList)],
  sym "..."]

/-- What may follow an operand without an operator. -/
def trailer : R := oneOf [
  call .arguments,
  brackets (opt (either (call .initializerList) (call .expressions))),
  seq [syms ["->", "."], absent (sym "*"), opt (kw "template"), call .operandName],
  syms ["++", "--"]]

/-- Operands and operators in turn. -/
def operation (open' : Bool) : R := sepBy1 (call .unary) (operator open')

/-- The rest of an expression behind its first operands. -/
def expressionTail : R := oneOf [
  seq [token assigning, either (call .initializerList) (call .expression)],
  seq [sym "?", opt (call .expressions), colon, call .expression],
  succeed]

/-- Operators before an operand. -/
def unaryRule : R := oneOf [
  seq [syms ["++", "--", "+", "-", "!", "~", "*", "&&", "&"], call .unary],
  seq [kws ["not", "compl", "co_await", "__extension__"], call .unary],
  seq [kw "sizeof", absent (sym "("), call .unary],
  seq [opt (sym "::"), kw "delete", optSeq [sym "[", sym "]"], call .unary],
  seq [kw "throw", opt (call .expression)],
  seq [kw "co_yield", either (call .initializerList) (call .expression)],
  seq [parens (call .typeId), either (call .initializerList) (call .unary)],
  call .suffixed]

/-! ### Functions -/

/-- The handlers of a `try` block. -/
def handlers : R := many1 (seq [kw "catch", call .parameters, call .block])

/-- First values of the parts of an object. -/
def memberInitializers : R := optSeq [colon, sepBy1 (seq [call .qualified,
  either (call .arguments) (call .initializerList), opt (sym "...")]) (sym ",")]

/-- The body of a function. -/
def functionBody : R := either (call .block) (seq [kw "try", memberInitializers, call .block,
  handlers])

/-- A body that is asked for, taken away or left open. -/
def impliedBody : R := seq [equals, oneOf [kw "default", kw "delete",
  token (Scan.keyword isInner "0")], sym ";"]

/-- The definition of a function that returns something; `kind` is the kind of a plain name. -/
def functionDefinition (kind : String) : R := node "function_definition" (seq [
  call .specifiers, either (plainFunction kind declaredScan) (call .declarator),
  if kind == "identifier" then functionBody else either functionBody impliedBody])

/-- The definition of a constructor, a destructor or a conversion. -/
def constructorDefinition : R := node "function_definition" (seq [
  many modifier,
  either (plainFunction "identifier" nameScan) (seq [
    oneOf [seq [sym "~", call .name], operatorName, call .qualified], call .parameters,
      functionSuffix]),
  oneOf [seq [memberInitializers, call .block], functionBody, impliedBody]])

/-- The declaration of a constructor, a destructor or a conversion. -/
def constructorDeclaration : R := seq [
  many modifier, oneOf [seq [opt (sym "~"), call .name], operatorName, call .qualified],
    call .parameters, functionSuffix, sym ";"]

/-! ### Items -/

/-- Items between braces. -/
def itemList : R := braces (many (call .item))

/-- A template. -/
def template : R := seq [kw "template", call .templateParameters,
  optSeq [kw "requires", constraint], opt (kw "friend"), call .item]

/-- What may stand both in and outside of classes. -/
def sharedItem : R := oneOf [
  seq [kw "using", oneOf [
    seq [kw "namespace", call .qualified],
    seq [call .name, many (call .attribute), equals, call .typeId],
    seq [opt (kws ["typename", "enum"]), call .qualified]], sym ";"],
  seq [kws ["static_assert", "_Static_assert"], call .arguments, sym ";"],
  seq [kw "typedef", call .specifiers, sepBy1 (call .declarator) (sym ","), many (call .attribute),
    sym ";"],
  template]

/-- A declaration of variables or of functions without bodies. -/
def declaration : R := seq [
  either (both (call .specifiers) (sepBy1 initDeclarator (sym ","))) (call .typeSpecifier),
  many (call .attribute), sym ";"]

/-- An item outside of classes. -/
def itemRule : R := oneOf [
  preprocessor (call .item),
  sharedItem,
  seq [opt (kw "inline"), kw "namespace", many (call .attribute), either
    (seq [call .name, equals, call .qualified, sym ";"])
    (seq [opt (sepBy1 (seq [opt (kw "inline"), call .name]) (sym "::")), itemList])],
  seq [kw "extern", token (Scan.quoted escape '"'), either itemList (call .item)],
  seq [kw "template", absent (sym "<"), call .specifiers, opt (call .declarator), sym ";"],
  seq [kw "concept", call .name, equals, call .expression, sym ";"],
  constructorDefinition,
  functionDefinition "identifier",
  declaration,
  constructorDeclaration,
  call .statement]

/-- A member of a class that declares something. -/
def declaringMember : R :=
  let value : R := optSeq [either
    (seq [equals, either (call .initializerList) (call .expression)]) (call .initializerList)]
  oneOf [
    sharedItem,
    seq [kw "friend", either
      (seq [opt (kws ["class", "struct", "union"]), call .qualified, sym ";"]) (call .item)],
    constructorDefinition,
    functionDefinition "field_identifier",
    seq [call .specifiers, opt (sepBy1 (either
        (seq [call .declarator, optSeq [colon, call .expression], value])
        (seq [colon, call .expression])) (sym ",")), many (call .attribute), sym ";"],
    constructorDeclaration]

/-- A member of a class. -/
def memberRule : R :=
  let access : R := kws ["public", "private", "protected"]
  oneOf [
    preprocessor (call .member),
    sym ";",
    seq [access, colon],
    except declaringMember access]



/-! ### Statements -/

/-- A condition, possibly behind a declaration. -/
def condition : R := parens (seq [
  opt (either declaration (seq [opt (call .expressions), sym ";"])),
  either (seq [call .specifiers, call .declarator,
    either (seq [equals, call .expression]) (call .initializerList)])
    (call .expressions)])

/-- The head of a loop. -/
def forHead : R := parens (either
  (seq [opt (either declaration (seq [opt (call .expressions), sym ";"])),
    call .specifiers, call .declarator, colon, either (call .initializerList) (call .expressions)])
  (seq [either declaration (seq [opt (call .expressions), sym ";"]),
    opt (call .expressions), sym ";", opt (call .expressions)]))

/-- A statement. -/
def statementRule : R := seq [many (call .attribute), oneOf [
  sym ";",
  call .block,
  seq [kw "if", oneOf [seq [opt (kw "constexpr"), condition], seq [opt (sym "!"), kw "consteval"]],
    call .statement, optSeq [kw "else", call .statement]],
  seq [kw "switch", condition, call .statement],
  seq [kw "while", condition, call .statement],
  seq [kw "do", call .statement, kw "while", parens (call .expressions), sym ";"],
  seq [kw "for", forHead, call .statement],
  seq [kw "return", opt (either (call .initializerList) (call .expressions)), sym ";"],
  seq [kw "co_return", opt (either (call .initializerList) (call .expressions)), sym ";"],
  seq [kws ["break", "continue"], sym ";"],
  seq [kw "goto", call .name, sym ";"],
  seq [either (seq [kw "case", call .expression]) (kw "default"), colon,
    opt (call .blockItem)],
  seq [kw "try", call .block, handlers],
  seq [call .name, colon, opt (call .blockItem)],
  seq [call .expressions, sym ";"]]]

/-- An item in a block. -/
def blockItemRule : R := oneOf [
  preprocessor (call .blockItem),
  sharedItem,
  seq [kw "namespace", call .name, equals, call .qualified, sym ";"],
  declaration,
  call .statement,
  call .item]

/-! ### The grammar -/

/-- The rule of each symbol. -/
def rule : Symbol → R
  | .item => itemRule
  | .member => memberRule
  | .statement => statementRule
  | .blockItem => blockItemRule
  | .block => node "compound_statement" (braces (many (call .blockItem)))
  | .classBody => node "field_declaration_list" (braces (many (call .member)))
  | .specifiers => seq [many modifier, call .typeSpecifier, many modifier]
  | .typeSpecifier => typeSpecifierRule
  | .typeId => both (call .specifiers) (call .abstractDeclarator)
  | .declarator => declaratorRule
  | .abstractDeclarator => abstractDeclaratorRule
  | .parameters => parens (opt (both (sepBy1 parameter (sym ",")) (opt (sym "..."))))
  | .attribute => either
      (seq [sym "[", sym "[", optSeq [kw "using", call .name, colon],
        commas (seq [sepBy1 anyWord (sym "::"), opt (call .arguments), opt (sym "...")]), sym "]",
          sym "]"])
      (seq [kws ["__attribute__", "__attribute"], call .arguments])
  | .qualified => qualifiedName (call .templateArguments)
  | .operandName => qualifiedName operandArguments
  | .templateArguments => seq [sym "<", opt (sepBy1 templateArgument (sym ",")), sym ">",
      absent (token (Scan.satisfy fun c => c.isDigit || c == '"' || c == '\''))]
  | .templateParameters => seq [sym "<", opt (sepBy1 (oneOf [
      seq [opt (seq [kw "template", call .templateParameters]), kws ["typename", "class"],
        opt (sym "..."),
        opt (call .name), absent (syms ["::", "<"]), optSeq [equals, call .typeId]],
      seq [call .specifiers, opt (sym "..."), either (call .declarator) (call .abstractDeclarator),
        optSeq [equals, either (both (call .typeId) (ahead (syms [",", ">"])))
          (call .closedBinary)]]]) (sym ",")), sym ">"]
  | .requirement => requiresExpression
  | .expression => both (call .binary) expressionTail
  | .expressions => sepBy1 (call .expression) (sym ",")
  | .binary => operation true
  | .closedBinary => operation false
  | .unary => unaryRule
  | .suffixed => seq [atom, many trailer, opt (sym "...")]
  | .arguments => parens (opt (sepBy1 (either (call .initializerList) (call .expression))
    (sym ",")))
  | .initializerList => braces (commas (oneOf [
      seq [many1 (either (seq [sym ".", call .name]) (brackets (call .expression))), equals,
        either (call .initializerList) (call .expression)],
      seq [sym ".", call .name, call .initializerList],
      call .initializerList,
      call .expression]))
  | .name => token nameScan

/-- **The grammar.** -/
def grammar : Grammar Symbol where
  index := Symbol.ctorIdx
  rule := rule
  gap := gapOf extra
  root := "translation_unit"
  opening := succeed
  item := call .item

/-- Words of the grammar. -/
def vocabulary : Query.Vocabulary where
  kinds := ["translation_unit", "function_definition", "function_declarator", "class_specifier",
    "struct_specifier", "union_specifier", "field_declaration_list", "compound_statement",
    "identifier", "field_identifier", "type_identifier"]
  fields := ["name", "body", "declarator", "parameters"]

end SourceChunks.Cpp
