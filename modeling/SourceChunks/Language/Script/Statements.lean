import SourceChunks.Language.Script.Expressions

/-!
# Scripts: declarations and statements

Functions, methods, classes and interfaces become nodes with their names.  Decorators directly
before a class belong to it; those of a method belong to it unless types are written.
-/

namespace SourceChunks.Script

open Parsing Parsing.Rule

/-- An expression in parentheses. -/
def condition (d : Dialect) : R := parens (seq [call .expressions, typedOpt d typeTag])

/-! ### Classes -/

/-- Words before the name of a member. -/
def modifiers (d : Dialect) : List String :=
  ["static", "async", "get", "set"] ++
    if d.hasTypes then ["public", "private", "protected", "override", "readonly", "declare",
      "abstract", "accessor"] else []

/-- A word before the name of a member.  In a class it stands on one line with what follows,
unless that cannot begin a line of its own. -/
def modifier (d : Dialect) (inClass : Bool) : R := seq [
  oneOf ((modifiers d).map kw),
  (if inClass then test fun t c => !(gapBreaksLine t c && startsAfresh t c.pos) else succeed),
  ahead (either memberName (sym "*"))]

/-- A method with a body. -/
def methodRule (d : Dialect) (inClass : Bool) : R := node "method_definition" (seq [
  (if d.hasTypes then succeed else many (call .decorator)),
  many (either (modifier d inClass) (sym "*")),
  field "name" memberName, typedOpt d (sym "?"), signature d, field "body" (call .block)])

/-- A field of a class. -/
def fieldMember (d : Dialect) : R := seq [
  many (call .decorator), many (modifier d true), memberName,
  typedOpt d (syms ["?", "!"]), typedOpt d typeTag, opt initializer]

/-- A method without a body. -/
def methodSignature : R := seq [
  many (call .decorator), many (either (modifier .typescript true) (sym "*")), memberName,
  opt (sym "?"), signature .typescript]

/-- An index signature in a class. -/
def indexSignature : R := seq [
  manySeq [oneOf [kw "static", kw "readonly"]],
  brackets (seq [call .identifier, sym ":", call .type]), typeTag]

/-- The body of a class. -/
def classBodyRule (d : Dialect) : R :=
  let divider : R := if d.hasTypes then either (sym ",") semicolon else semicolon
  node "class_body" (braces (many (oneOf [
    sym ";",
    seq [kw "static", call .block],
    seq [(if d.hasTypes then many (call .decorator) else succeed), methodRule d true,
      opt (sym ";")],
    typed d (seq [indexSignature, divider]),
    seq [fieldMember d, divider],
    typed d (seq [methodSignature, divider])])))

/-- A decorator. -/
def decoratorRule : R := node "decorator" (seq [sym "@", either
  (parens (call .expression))
  (seq [call .identifier, many (either dotMember (call .arguments))])])

/-- The declaration of a class. -/
def classDeclaration (d : Dialect) : R :=
  let rest : R := seq [kw "class",
    (if d.hasTypes then nameOf "type_identifier" ["extends", "implements"]
      else nameOf "identifier" ["extends"]),
    typedOpt d (call .typeParameters), heritage d, field "body" (call .classBody)]
  either
    (node "class_declaration" (both (many (call .decorator)) rest))
    (typed d (node "abstract_class_declaration"
      (seq [many (call .decorator), kw "abstract", rest])))

/-! ### Other declarations -/

/-- The declaration of a function, a generator, or a function without a body. -/
def functionDeclaration (d : Dialect) : R :=
  let async : R := opt (seq [kw "async", unbroken])
  oneOf [
    node "function_declaration" (seq [async, kw "function", nameOf "identifier" [],
      call .functionTail]),
    node "generator_function_declaration" (seq [async, kw "function", sym "*",
      nameOf "identifier" [],
      call .functionTail]),
    typed d (node "function_signature" (seq [async, kw "function", nameOf "identifier" [],
      signature d, semicolon]))]

/-- Variables with their values. -/
def variableDeclaration (d : Dialect) : R :=
  let target : R :=
    either (call .pattern) (token (Scan.wordExcept isStart isInner ["in", "instanceof", "of"]))
  seq [
  oneOf [kw "var", kw "const", seq [kw "let", ahead target]],
  sepBy1 (seq [target, typedOpt d (sym "!"), typedOpt d typeTag, opt initializer]) (sym ","),
  semicolon]

/-- The declaration of an interface. -/
def interfaceDeclaration : R := node "interface_declaration" (seq [
  kw "interface", nameOf "type_identifier" [], opt (call .typeParameters),
  optSeq [kw "extends", commas1 (call .type)],
    field "body" (node "interface_body" (call .objectType))])

/-- The declaration of an enumeration. -/
def enumDeclaration : R := seq [opt (kw "const"), kw "enum", call .identifier,
  braces (commas (seq [memberName, opt initializer]))]

/-- The declaration of a name space. -/
def moduleDeclaration : R := seq [either (kw "namespace") (kw "module"), unbroken,
  either (token string) (sepBy1 (call .identifier) (sym ".")), either (call .block) semicolon]

/-- Declarations that only stand where types are written. -/
def typedDeclaration (d : Dialect) : R := oneOf [
  interfaceDeclaration,
  seq [kw "type", call .identifier, opt (call .typeParameters), equals, call .type, semicolon],
  enumDeclaration,
  moduleDeclaration,
  seq [kw "import", opt (kw "type"), call .identifier, equals, either
    (seq [kw "require", parens (token string)])
    (sepBy1 (call .identifier) (sym ".")), semicolon],
  seq [kw "declare", unbroken, oneOf [
    call .declaration,
    seq [kw "global", call .block],
    seq [kw "module", sym ".", call .identifier, sym ":", call .type, semicolon]]]]
  |> typed d

/-- Every declaration. -/
def declarationRule (d : Dialect) : R := oneOf [
  functionDeclaration d, classDeclaration d, typedDeclaration d, variableDeclaration d]

/-! ### Imports and exports -/

/-- A name in an import or export list. -/
def listedName : R := either (token anyWord) (token string)

/-- Names between braces, with the names they are given. -/
def nameList (d : Dialect) : R := braces (commas (seq [
  typedOpt d (seq [either (kw "type") (kw "typeof"),
    absent (either (syms [",", "\x7d"]) (seq [kw "as", absent (kw "as")]))]),
  listedName, optSeq [kw "as", listedName]]))

/-- Where names come from. -/
def fromClause : R := seq [kw "from", token string]

/-- Attributes of an import. -/
def importAttributes : R := optSeq [unbroken, either (kw "with") (kw "assert"), call .object]

/-- What an import brings in. -/
def importClause (d : Dialect) : R :=
  let group : R := either (seq [sym "*", kw "as", call .identifier]) (nameList d)
  either group (seq [call .identifier, optSeq [sym ",", group]])

/-- An import. -/
def importStatement (d : Dialect) : R := seq [kw "import", absent (syms ["(", "."]), oneOf [
  token string,
  typed d (seq [either (kw "type") (kw "typeof"), importClause d, fromClause]),
  seq [importClause d, fromClause]], importAttributes, semicolon]

/-- An export. -/
def exportStatement (d : Dialect) : R := either
  (seq [kw "export", oneOf [
    seq [typedOpt d (kw "type"), sym "*", optSeq [kw "as", listedName], fromClause,
      importAttributes, semicolon],
    seq [typedOpt d (kw "type"), nameList d, optSeq [fromClause, importAttributes], semicolon],
    typed d (seq [equals, call .expression, semicolon]),
    typed d (seq [kw "as", kw "namespace", call .identifier, semicolon])]])
  (seq [many (call .decorator), kw "export", oneOf [
    call .declaration,
    seq [kw "default", either (call .declaration) (seq [call .expression, semicolon])]]])

/-! ### Statements -/

/-- The head of a loop. -/
def forHead (d : Dialect) : R := parens (either
  (seq [either
      (seq [oneOf [kw "var", kw "let", kw "const"], call .pattern, opt initializer])
      (either (call .suffixed) (call .pattern)),
    either (kw "in") (kw "of"), call .expressions])
  (seq [oneOf [seq [variableDeclaration d], seq [call .expressions, sym ";"], sym ";"],
    either (seq [call .expressions, sym ";"]) (sym ";"), opt (call .expressions)]))

/-- A statement. -/
def statementRule (d : Dialect) : R := oneOf [
  token pageComment,
  sym ";",
  call .block,
  exportStatement d,
  importStatement d,
  call .declaration,
  seq [kw "if", condition d, call .statement, optSeq [kw "else", call .statement]],
  seq [kw "for", opt (kw "await"), forHead d, call .statement],
  seq [kw "while", condition d, call .statement],
  seq [kw "do", call .statement, kw "while", condition d, opt semicolon],
  seq [kw "try", call .block,
    optSeq [kw "catch", optSeq [parens (seq [call .pattern, typedOpt d typeTag])], call .block],
    optSeq [kw "finally", call .block]],
  seq [kw "switch", condition d, braces (many (seq [
    either (seq [kw "case", call .expressions]) (kw "default"), sym ":", many (call .statement)]))],
  seq [kw "with", condition d, call .statement],
  seq [either (kw "break") (kw "continue"), optSeq [unbroken, call .identifier], semicolon],
  seq [kw "return", optSeq [unbroken, call .expressions], semicolon],
  seq [kw "throw", call .expressions, semicolon],
  seq [kw "debugger", semicolon],
  seq [call .identifier, sym ":", call .statement],
  seq [call .expressions, semicolon]]

end SourceChunks.Script
