import SourceChunks.Language.Script.Types

/-!
# Scripts: expressions

Operators are read without regard to their strength.  An arrow function is tried before the
expressions that begin like it.
-/

namespace SourceChunks.Script

open Parsing Parsing.Rule

/-- Operators that assign. -/
def assigning : Scan := Scan.oneOf [
  Scan.texts ["+=", "-=", "*=", "/=", "%=", "^=", "&=", "|=", ">>=", ">>>=", "<<=", "**=", "&&=",
    "||=", "??="],
  Scan.andThen (Scan.text "=") (Scan.absent (Scan.texts ["=", ">"]))]

/-- An operator between two operands. -/
def operator : R := oneOf [
  token (Scan.andThen (Scan.absent assigning) (Scan.orElse
    (Scan.texts ["===", "!==", "==", "!=", ">>>", "<<", ">>", "<=", ">=", "&&", "||", "??", "**",
      "*", "/", "%", "&", "|", "^", "<", ">"])
    (Scan.oneOf [Scan.andThen (Scan.text "+") (Scan.absent (Scan.text "+")),
      Scan.andThen (Scan.text "-") (Scan.absent (Scan.text "-"))]))),
  kw "instanceof", kw "in"]

/-- The question mark of a choice. -/
def questionMark : R := token (Scan.seq [Scan.text "?", Scan.absent (Scan.text "?"),
  Scan.absent (Scan.andThen (Scan.text ".") (Scan.satisfy (!Char.isDigit ·)))])

/-- A spread expression or a plain one. -/
def spreadable : R := both (opt (sym "...")) (call .expression)

/-- Elements with commas between them, some of which may be missing. -/
def sparse (r : R) : R := both (opt r) (many (both (sym ",") (opt r)))

/-- A member behind a dot. -/
def dotMember : R := seq [symNot "." ['.'], token
  (Scan.andThen (Scan.optional (Scan.text "#")) anyWord)]

/-- A subscript. -/
def subscript : R := brackets (call .expressions)

/-- What may follow an operand without an operator. -/
def trailer (d : Dialect) : R := oneOf [
  dotMember,
  seq [sym "?.", oneOf [seq [typedOpt d (call .typeArguments), call .arguments], subscript,
    token (Scan.andThen (Scan.optional (Scan.text "#")) anyWord)]],
  subscript,
  call .arguments,
  template,
  typed d (seq [unbroken, symNot "!" ['=']]),
  typed d (seq [call .typeArguments, either (call .arguments) template])]

/-- A function without a name of its own in the tree. -/
def functionExpression : R := seq [opt (seq [kw "async", unbroken]), kw "function", opt (sym "*"),
  opt (token anyWord), call .functionTail]

/-- What a class extends and implements. -/
def heritage (d : Dialect) : R :=
  if d.hasTypes then seq [
    optSeq [kw "extends", commas1 (seq [call .suffixed, opt (call .typeArguments)])],
    optSeq [kw "implements", commas1 (call .type)]]
  else optSeq [kw "extends", call .suffixed]

/-- A class in an expression. -/
def classExpression (d : Dialect) : R := seq [many (call .decorator), kw "class",
  opt (both (absent (either (kw "extends") (if d.hasTypes then kw "implements" else fail)))
    (call .identifier)),
  typedOpt d (call .typeParameters), heritage d, call .classBody]

/-- An object made by `new`. -/
def newExpression (d : Dialect) : R := seq [kw "new", either
  (seq [sym ".", kw "target"])
  (seq [call .atom, many (oneOf [dotMember, subscript, template,
    typed d (seq [unbroken, symNot "!" ['=']])]),
    typedOpt d (call .typeArguments), opt (call .arguments)])]

/-- The innermost operands. -/
def atomRule (d : Dialect) : R := oneOf [
  token string,
  token number,
  template,
  token regex,
  brackets (sparse spreadable),
  call .object,
  parens (seq [call .expressions, typedOpt d typeTag]),
  functionExpression,
  classExpression d,
  newExpression d,
  seq [kw "import", either (call .arguments) dotMember],
  kw "this", kw "super", kw "null", kw "true", kw "false",
  if d.hasMarkup then both (call .markup) (token Scan.empty) else fail,
  call .identifier,
  token (Scan.andThen (Scan.text "#") anyWord)]

/-- An operand with the operators before it. -/
def unaryRule (d : Dialect) : R := seq [
  many (oneOf [
    syms ["++", "--", "!", "~", "-", "+"], kw "typeof", kw "void", kw "delete",
    seq [kw "await", absent (syms [")", ",", ";", "=", "."])],
    if d.hasTypes && !d.hasMarkup then call .typeArguments else fail]),
  call .suffixed, optSeq [unbroken, syms ["++", "--"]]]

/-- Operands and operators in turn. -/
def binaryRule (d : Dialect) : R := seq [call .unary, many (either
  (both operator (call .unary))
  (typed d (seq [unbroken, either (kw "as") (kw "satisfies"), either (kw "const") (call .type)])))]

/-- An expression without commas. -/
def expressionRule : R := oneOf [
  call .arrowFunction,
  seq [kw "yield", either (seq [sym "*", call .expression]) (optSeq [unbroken, call .expression])],
  seq [call .binary, oneOf [
    both (token assigning) (call .expression),
    seq [questionMark, call .expression, sym ":", call .expression],
    succeed]]]

/-- A function written with an arrow. -/
def arrowRule (d : Dialect) : R := node "arrow_function" (seq [
  opt (seq [kw "async", unbroken, absent (sym "=>")]),
  either (call .identifier) (signature d),
  unbroken, sym "=>", either (call .block) (call .expression)])

/-- A name, or the parts that an object or array is taken into. -/
def patternRule : R :=
  let valued : R := both (call .pattern) (opt initializer)
  oneOf [
    call .identifier,
    seq [sym "...", absent (sym "..."), call .pattern],
    brackets (sparse valued),
    braces (sparse (oneOf [
      seq [sym "...", call .pattern],
      seq [memberName, sym ":", valued],
      seq [call .identifier, opt initializer]]))]

/-- Parameters of a function. -/
def parametersRule (d : Dialect) : R := parens (commas (seq [
  many (call .decorator),
  (if d.hasTypes then manySeq [oneOf [kw "public", kw "private", kw "protected", kw "override",
    kw "readonly"], absent (syms [",", ")", ":", "?", "="])] else succeed),
  either (kw "this") (call .pattern),
  typedOpt d (sym "?"), typedOpt d typeTag, opt initializer]))

/-- Arguments of a call. -/
def argumentsRule : R := parens (sparse spreadable)

/-- An object written out. -/
def objectRule : R := braces (sparse (oneOf [
  call .method,
  seq [memberName, sym ":", call .expression],
  seq [sym "...", call .expression],
  seq [call .identifier, opt initializer]]))

/-! ### Markup -/

/-- A name in markup, which may hold dashes. -/
def markupWord : Scan := Scan.word isStart fun c => isInner c || c == '-'

/-- The name of an element. -/
def markupName : R := seq [token markupWord, manySeq [syms [".", ":"], token markupWord]]

/-- A string in markup: no character is special but the quote. -/
def markupString : Scan := Scan.orElse
  (Scan.seq [Scan.text "\"", Scan.many (Scan.noneOf ['"']), Scan.text "\""])
  (Scan.seq [Scan.text "'", Scan.many (Scan.noneOf ['\'']), Scan.text "'"])

/-- An attribute of an element. -/
def markupAttribute : R := oneOf [
  braces (seq [sym "...", call .expression]),
  seq [token markupWord, optSeq [sym ":", token markupWord],
    optSeq [sym "=", oneOf [
      token markupString,
      braces (opt (both (opt (sym "...")) (call .expressions))),
      both (call .markup) (token Scan.empty)]]]]

/-- What stands between two tags, with the brackets of the second one. -/
def markupContent (name : R) : R := seq [
  glued (Scan.text ">"),
  many (oneOf [
    glued (Scan.run1 fun c => !(['<', '>', '\x7b', '\x7d'].contains c)),
    seq [sym "\x7b", opt (both (opt (sym "...")) (call .expressions)), glued (Scan.text "\x7d")],
    call .markup]),
  sym "<", sym "/", name, glued (Scan.text ">")]

/-- An element or a fragment; nothing is passed over behind it. -/
def markupRule (d : Dialect) : R := both (sym "<") (either
  (seq [markupName, typedOpt d (call .typeArguments), many markupAttribute,
    either (glued (Scan.text "/>")) (markupContent markupName)])
  (markupContent succeed))

end SourceChunks.Script
