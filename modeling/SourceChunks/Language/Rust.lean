import SourceChunks.Parsing.Lexeme
import SourceChunks.Parsing.Run
import SourceChunks.Tree.Query

/-!
# Rust

Functions, structs and implementations become nodes that begin with their visibility; attributes
and doc comments stand outside.  What a macro is given, and what it is defined by, is read as a
tree of brackets and nothing more.  In the head of a loop, a condition or a `match`, a brace never
opens a struct value.
-/

namespace SourceChunks.Rust

open Parsing Parsing.Rule

/-- The symbols of the grammar. -/
inductive Symbol where
  | statement
  | item
  | block
  | blockLike
  | expression
  | head
  | operand
  | headOperand
  | suffixed
  | headSuffixed
  | arguments
  | closure
  | path
  | pattern
  | patternPart
  | type
  | typePart
  | typeArguments
  | typeParameters
  | bounds
  | parameters
  | whereClause
  | attribute
  | tokenTree
  | identifier
  | lifetime

/-- A rule of the grammar. -/
abbrev R := Rule Symbol

/-- May begin a name. -/
def isStart (c : Char) : Bool := c == '_' || Identifier.isStart c

/-- May stand inside a name. -/
def isInner (c : Char) : Bool := Identifier.isInner c

/-! ### Lexemes -/

/-- The place after a comment between `/*` and `*/` that is `depth` comments deep. -/
def nestedEnd? (t : Input) : Nat → Nat → Nat → Option Nat
  | 0, _, _ => none
  | fuel + 1, depth, i =>
    if (Scan.text "*/" t i).isSome then
      if depth ≤ 1 then some (i + 2) else nestedEnd? t fuel (depth - 1) (i + 2)
    else if (Scan.text "/*" t i).isSome then nestedEnd? t fuel (depth + 1) (i + 2)
    else if i < t.size then nestedEnd? t fuel depth (i + 1)
    else none

/-- A comment between `/*` and `*/`; comments may hold comments. -/
def nestedComment : Scan := fun t i =>
  if (Scan.text "/*" t i).isSome then nestedEnd? t (t.size + 1) 1 (i + 2) else none

/-- Blanks and comments. -/
def extra : Scan := Scan.oneOf [Scan.satisfy Scan.isSpace, Scan.lineComment "//", nestedComment]

/-- Words that are never names. -/
def reserved : List String :=
  ["as", "async", "await", "break", "const", "continue", "dyn", "else", "enum", "extern", "false",
    "fn", "for", "if", "impl", "in", "let", "loop", "match", "mod", "move", "mut", "pub", "ref",
    "return", "static", "struct", "trait", "true", "type", "unsafe", "use", "where", "while"]

/-- Types that are no names. -/
def primitives : List String :=
  ["u8", "i8", "u16", "i16", "u32", "i32", "u64", "i64", "u128", "i128", "isize", "usize", "f32",
    "f64", "bool", "str", "char"]

/-- A keyword. -/
def kw (w : String) : R := token (Scan.keyword isInner w)

/-- One of some keywords. -/
def kws (ws : List String) : R := token (Scan.oneOf (ws.map (Scan.keyword isInner)))

/-- A name; a reserved word becomes one behind `r#`. -/
def name : Scan := Scan.orElse
  (Scan.seq [Scan.text "r#", Scan.word isStart isInner])
  (Scan.wordExcept isStart isInner reserved)

/-- A name where no keyword can stand: any word. -/
def anyName : Scan := Scan.andThen (Scan.optional (Scan.text "r#")) (Scan.word isStart isInner)

/-- The same number of `#` as stand between `r` and the quote ends a raw string. -/
def rawString : Scan := fun t i =>
  match Scan.seq [Scan.optional (Scan.satisfy "bc".toList.contains), Scan.text "r"] t i with
  | none => none
  | some j =>
    let k := Scan.repeated (Scan.text "#") t (t.size - j) j
    let close := '"' :: List.replicate (k - j) '#'
    Scan.andThen (Scan.text "\"") (Scan.through (Scan.chars close)) t k

/-- A backslash with what it takes along. -/
def escape : Scan := Scan.escapeOf [Scan.code 'x' 2, Scan.code 'u' 4, Scan.bracedCode] ['x', 'u']

/-- A string, which may run over several lines. -/
def string : Scan := Scan.orElse rawString (Scan.seq [
  Scan.optional (Scan.satisfy "bc".toList.contains), Scan.text "\"",
  Scan.many (Scan.orElse escape (Scan.noneOf ['"', '\\'])), Scan.text "\""])

/-- A character between quotes. -/
def character : Scan := Scan.seq [Scan.optional (Scan.text "b"), Scan.text "'",
  Scan.optional (Scan.orElse escape (Scan.noneOf ['\'', '\\'])), Scan.text "'"]

/-- A number.  A dot belongs to it unless a name or another dot follows. -/
def number : Scan := Scan.andThen (Scan.oneOf [
  Scan.based,
  Scan.seq [Scan.digits,
    Scan.optional (Scan.seq [Scan.text ".", Scan.absent (Scan.satisfy fun c => isStart c ||
      c == '.'),
      Scan.optional Scan.digits]),
    Scan.optional (Scan.exponent ['e', 'E'])]])
  (Scan.many (Scan.satisfy isInner))

/-- A literal. -/
def literal : R := oneOf [token string, token character, token number, kw "true", kw "false"]

/-- The equals sign alone. -/
def equals : R := symNot "=" ['=', '>']

/-! ### Types -/

/-- A bound: a type or a lifetime, possibly for all lifetimes, possibly dropped by `?`. -/
def bound : R := either (call .lifetime) (seq [
  opt (syms ["?", "~"]), opt (kw "const"), optSeq [kw "for", call .typeParameters], call .typePart])

/-- The result of a function. -/
def result : R := optSeq [sym "->", call .type]

/-- A segment of a path in a type. -/
def typeSegment : R := seq [either (call .identifier) (token (Scan.andThen (Scan.text "$") name)),
  opt (both (opt (sym "::")) (call .typeArguments)), opt (seq [call .parameters, result])]

/-- A path in a type. -/
def typePath : R := seq [
  oneOf [seq [sym "<", call .type, optSeq [kw "as", call .type], sym ">", sym "::"], sym "::",
    succeed],
  sepBy1 typeSegment (sym "::"), optSeq [symNot "!" ['='], call .tokenTree]]

/-- A type without `+`. -/
def typePartRule : R := oneOf [
  seq [sym "&", opt (call .lifetime), opt (kw "mut"), call .typePart],
  seq [sym "*", either (kw "const") (kw "mut"), call .typePart],
  sym "!",
  parens (commas (call .type)),
  brackets (seq [call .type, optSeq [sym ";", call .expression]]),
  seq [optSeq [kw "for", call .typeParameters],
    many (either (kw "unsafe") (seq [kw "extern", opt (token string)])),
    kw "fn", call .parameters, result],
  seq [either (kw "dyn") (kw "impl"), optSeq [kw "for", call .typeParameters],
    sepBy1 bound (sym "+")],
  seq [kw "for", call .typeParameters, call .typePart],
  typePath]

/-! ### Patterns -/

/-- The end of a range. -/
def rangeEnd : R := optSeq [syms ["..=", "...", ".."],
  opt (oneOf [literal, seq [sym "-", token number], call .path])]

/-- A field in a struct pattern. -/
def fieldPattern : R := seq [many (call .attribute), oneOf [
  sym "..",
  seq [either (call .identifier) (token number), symNot ":" [':'], call .pattern],
  seq [many (kws ["ref", "mut"]), call .identifier]]]

/-- A pattern without `|`. -/
def patternPartRule : R := oneOf [
  seq [opt (sym "-"), literal, rangeEnd],
  seq [syms ["..=", "..", "..."], opt (either literal (call .path))],
  seq [sym "&", opt (kw "mut"), call .patternPart],
  seq [many1 (kws ["ref", "mut", "box"]), call .patternPart],
  parens (commas (call .pattern)),
  brackets (commas (call .pattern)),
  seq [kw "const", call .block],
  seq [call .identifier, sym "@", call .pattern],
  seq [call .path, oneOf [
    seq [symNot "!" ['='], call .tokenTree],
    parens (commas (call .pattern)),
    braces (commas fieldPattern),
    rangeEnd]]]

/-! ### Expressions -/

/-- Operators that assign. -/
def assigning : Scan := Scan.oneOf [
  Scan.texts ["+=", "-=", "*=", "/=", "%=", "&=", "|=", "^=", "<<=", ">>="],
  Scan.andThen (Scan.text "=") (Scan.absent (Scan.texts ["=", ">"]))]

/-- An operator between two operands. -/
def operator : R := token (Scan.orElse assigning (Scan.texts
  ["==", "!=", "<=", ">=", "&&", "||", "<<", ">>", "+", "-", "*", "/", "%", "&", "|", "^", "<",
    ">"]))

/-- Operators before an operand. -/
def beforeOperand : R := oneOf [
  seq [sym "&", opt (seq [kw "raw", either (kw "mut") (kw "const")]), opt (kw "mut")],
  syms ["-", "*", "!"]]

/-- What may stand before an operand of a condition. -/
def beforeCondition : R := either beforeOperand (seq [kw "let", call .pattern, equals])

/-- Operands and operators in turn; `operand` says which operands may stand there. -/
def operation (operand : R) : R :=
  let rangeSign : R := syms ["..=", "...", ".."]
  either
    (seq [operand, many (oneOf [
      seq [rangeSign, opt operand],
      seq [operator, operand],
      seq [kw "as", call .typePart]])])
    (seq [rangeSign, opt operand])

/-- What may follow an operand without an operator. -/
def trailer : R := oneOf [
  sym "?",
  call .arguments,
  brackets (call .expression),
  seq [symNot "." ['.'], oneOf [
    kw "await", token Scan.digits,
    seq [token anyName, optSeq [sym "::", call .typeArguments]]]]]

/-- The value of a struct. -/
def structBody : R := braces (commas (seq [many (call .attribute), oneOf [
  seq [sym "..", opt (call .expression)],
  seq [either (call .identifier) (token number), symNot ":" [':'], call .expression],
  call .identifier]]))

/-- The innermost operands.  `structs` says whether a brace may open a struct value. -/
def atom (structs : Bool) : R :=
  let rest : R := if structs then call .expression else call .head
  oneOf [
    literal,
    call .blockLike,
    call .closure,
    seq [kw "return", opt rest],
    seq [kw "break", opt (call .lifetime), opt rest],
    seq [kw "continue", opt (call .lifetime)],
    seq [kw "yield", opt rest],
    parens (seq [many (call .attribute), commas (seq [many (call .attribute), call .expression])]),
    brackets (seq [many (call .attribute), opt (either
      (seq [call .expression, sym ";", call .expression])
      (commas1 (seq [many (call .attribute), call .expression])))]),
    seq [call .path, oneOf [
      seq [symNot "!" ['='], call .tokenTree],
      if structs then structBody else fail,
      succeed]]]

/-- A function without a name. -/
def closureRule : R := seq [
  many (kws ["static", "async", "move"]),
  either (sym "||") (seq [sym "|", commas (seq [many (call .attribute), call .patternPart,
    optSeq [symNot ":" [':'], call .type]]), sym "|"]),
  either (seq [sym "->", call .type, call .block]) (call .expression)]

/-- A branch of a `match`. -/
def matchArm : R := seq [
  many (call .attribute), call .pattern,
  optSeq [kw "if", operation (both (many beforeCondition) (call .suffixed))], sym "=>",
  oneOf [
    seq [call .expression, sym ","],
    seq [call .expression, ahead (sym "\x7d")],
    seq [call .blockLike, opt (sym ",")]]]

/-- An `if` with its branches. -/
def ifExpression : R := seq [kw "if", call .head, call .block,
  manySeq [kw "else", kw "if", call .head, call .block], optSeq [kw "else", call .block]]

/-- Expressions that end with a block. -/
def blockLikeRule : R := oneOf [
  seq [optSeq [call .lifetime, symNot ":" [':']], oneOf [
    call .block,
    seq [kw "loop", call .block],
    seq [kw "while", call .head, call .block],
    seq [kw "for", call .pattern, kw "in", call .head, call .block]]],
  seq [kw "unsafe", call .block],
  seq [kw "async", opt (kw "move"), call .block],
  seq [kw "const", call .block],
  seq [kw "try", call .block],
  ifExpression,
  seq [kw "match", call .head, braces (seq [many (call .attribute), many matchArm])]]

/-! ### Items -/

/-- Who may see an item. -/
def visibility : R := opt (seq [kw "pub", opt (parens (oneOf [
  seq [kw "in", call .path], call .path]))])

/-- Words before `fn`. -/
def functionWords : R := many (either (kws ["async", "default", "const", "unsafe"])
  (seq [kw "extern", opt (token string)]))

/-- The declaration of a function, with a body or without. -/
def function : R :=
  let start : R := seq [visibility, functionWords, kw "fn",
    field "name" (node "identifier" (token anyName)),
    opt (call .typeParameters), field "parameters" (call .parameters), result,
      opt (call .whereClause)]
  either
    (node "function_item" (seq [start, field "body" (call .block)]))
    (node "function_signature_item" (seq [start, sym ";"]))

/-- Named fields between braces. -/
def fieldList : R := braces (commas (seq [many (call .attribute), visibility, token anyName,
  symNot ":" [':'], call .type]))

/-- Types of fields between parentheses. -/
def typeList : R := parens (commas (seq [many (call .attribute), visibility, call .type]))

/-- The declaration of a struct. -/
def struct : R := node "struct_item" (seq [visibility, kw "struct",
  field "name" (node "type_identifier" (token anyName)), opt (call .typeParameters), oneOf [
    seq [opt (call .whereClause), fieldList],
    seq [typeList, opt (call .whereClause), sym ";"],
    sym ";"]])

/-- Items between braces. -/
def itemList : R := braces (many (call .item))

/-- A type that is a single name. -/
def plainType : R := both (absent (kws primitives)) (both (node "type_identifier" (token name))
  (absent (syms ["::", "<", "!", "("])))

/-- An implementation. -/
def impl : R := node "impl_item" (seq [opt (kw "default"), opt (kw "unsafe"), kw "impl",
  opt (call .typeParameters),
  optSeq [opt (sym "!"), call .type, kw "for"],
  field "type" (either plainType (call .type)), opt (call .whereClause), either itemList (sym ";")])

/-- What `use` brings in. -/
def useTree : Nat → R
  | 0 => fail
  | depth + 1 =>
    let group : R := braces (commas (useTree depth))
    oneOf [
      group, sym "*",
      seq [opt (sym "::"), sepBy1 (call .identifier) (seq [sym "::", absent (syms ["*", "\x7b"])]),
        oneOf [seq [sym "::", either group (sym "*")], seq [kw "as", call .identifier], succeed]]]

/-- A variant of an enumeration. -/
def variant : R := seq [many (call .attribute), visibility, call .identifier,
  opt (either fieldList typeList), optSeq [equals, call .expression]]

/-- An item. -/
def itemRule : R := oneOf [
  sym ";",
  call .attribute,
  function,
  struct,
  impl,
  seq [visibility, kw "enum", token anyName, opt (call .typeParameters), opt (call .whereClause),
    braces (commas variant)],
  seq [visibility, kw "union", call .identifier, opt (call .typeParameters),
    opt (call .whereClause), fieldList],
  seq [visibility, opt (kw "unsafe"), opt (kw "auto"), kw "trait", token anyName,
    opt (call .typeParameters),
    opt (call .bounds), opt (call .whereClause), itemList],
  seq [visibility, kw "mod", token anyName, either itemList (sym ";")],
  seq [visibility, opt (kw "unsafe"), kw "extern", opt (token string), either itemList (sym ";")],
  seq [visibility, kw "extern", kw "crate", call .identifier, optSeq [kw "as", call .identifier],
    sym ";"],
  seq [visibility, kw "use", useTree 20, sym ";"],
  seq [visibility, opt (kw "default"), kw "const", call .identifier, symNot ":" [':'], call .type,
    optSeq [equals, call .expression], sym ";"],
  seq [visibility, kw "static", opt (kw "mut"), call .identifier, symNot ":" [':'], call .type,
    optSeq [equals, call .expression], sym ";"],
  seq [visibility, opt (kw "default"), kw "type", token anyName, opt (call .typeParameters),
    opt (call .bounds),
    opt (call .whereClause), optSeq [equals, call .type], opt (call .whereClause), sym ";"],
  seq [kw "let", either (call .pattern) (token anyName), optSeq [symNot ":" [':'], call .type],
    optSeq [equals, call .expression],
    optSeq [kw "else", call .block], sym ";"],
  seq [token (Scan.text "macro_rules!"), call .identifier, call .tokenTree, opt (sym ";")]]

/-! ### The grammar -/

/-- The rule of each symbol. -/
def rule : Symbol → R
  | .statement => oneOf [
      call .item,
      seq [call .expression, sym ";"],
      call .blockLike,
      seq [call .path, symNot "!" ['='], call .tokenTree]]
  | .item => either itemRule (seq [call .path, symNot "!" ['='], opt (call .identifier),
    call .tokenTree, opt (sym ";")])
  | .block => node "block" (braces (seq [many (call .statement), opt (call .expression)]))
  | .blockLike => blockLikeRule
  | .expression => operation (call .operand)
  | .head => operation (call .headOperand)
  | .operand => both (many beforeOperand) (call .suffixed)
  | .headOperand => both (many beforeCondition) (call .headSuffixed)
  | .suffixed => both (atom true) (many trailer)
  | .headSuffixed => both (atom false) (many trailer)
  | .arguments => parens (commas (seq [many (call .attribute), call .expression]))
  | .closure => closureRule
  | .path => seq [
      oneOf [seq [sym "<", call .type, optSeq [kw "as", call .type], sym ">", sym "::"], sym "::",
        succeed],
      sepBy1 (seq [either (call .identifier) (token (Scan.andThen (Scan.text "$") name)),
        optSeq [sym "::", call .typeArguments]]) (sym "::")]
  | .pattern => seq [opt (sym "|"), sepBy1 (call .patternPart) (symNot "|" ['|'])]
  | .patternPart => patternPartRule
  | .type => seq [call .typePart, manySeq [sym "+", bound]]
  | .typePart => typePartRule
  | .typeArguments => seq [sym "<", commas (oneOf [
      call .lifetime,
      seq [call .identifier, opt (call .typeArguments),
        either (seq [equals, call .type]) (call .bounds)],
      call .type, literal, seq [sym "-", literal], call .block]), sym ">"]
  | .typeParameters => seq [sym "<", commas (seq [many (call .attribute), oneOf [
      seq [kw "const", call .identifier, symNot ":" [':'], call .type,
        optSeq [equals, oneOf [call .block, literal, seq [sym "-", literal], call .identifier]]],
      seq [call .lifetime, opt (call .bounds)],
      seq [call .identifier, opt (call .bounds), optSeq [equals, call .type]]]]), sym ">"]
  | .bounds => seq [symNot ":" [':'], opt (sepBy1 bound (sym "+")), opt (sym "+")]
  | .parameters => parens (commas (seq [many (call .attribute), oneOf [
      sym "...",
      seq [opt (sym "&"), opt (call .lifetime), opt (kw "mut"), kw "self",
        optSeq [symNot ":" [':'], call .type]],
      seq [opt (kw "mut"), call .pattern, symNot ":" [':'], either (call .type) (sym "...")],
      call .type]]))
  | .whereClause => seq [kw "where", commas (seq [
      either (call .lifetime) (seq [optSeq [kw "for", call .typeParameters], call .type]),
        call .bounds])]
  | .attribute => seq [sym "#", opt (sym "!"), ahead (sym "["), call .tokenTree]
  | .tokenTree =>
      let leaf : R := oneOf [
        call .tokenTree, token string, token character, call .lifetime,
        token (Scan.run1 isInner), token (Scan.noneOf ['(', ')', '[', ']', '\x7b', '\x7d', '"'])]
      oneOf [parens (many leaf), brackets (many leaf), braces (many leaf)]
  | .identifier => token name
  | .lifetime => token (Scan.andThen (Scan.text "'") (Scan.word isStart isInner))

/-- **The grammar.** -/
def grammar : Grammar Symbol where
  index := Symbol.ctorIdx
  rule := rule
  gap := gapOf extra
  root := "source_file"
  opening := opt (token (Scan.seq [Scan.text "#!", Scan.absent (Scan.text "["), Scan.restOfLine]))
  item := call .statement

/-- Words of the grammar. -/
def vocabulary : Query.Vocabulary where
  kinds := ["source_file", "function_item", "function_signature_item", "struct_item", "impl_item",
    "block", "identifier", "type_identifier"]
  fields := ["name", "body", "type", "parameters"]

end SourceChunks.Rust
