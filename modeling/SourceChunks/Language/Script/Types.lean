import SourceChunks.Language.Script.Basic

/-!
# Scripts: types

Types as they are written behind colons, in declarations and between angle brackets.
-/

namespace SourceChunks.Script

open Parsing Parsing.Rule

/-- The type behind a colon. -/
def typeTag : R := seq [sym ":", call .type]

/-- What a function returns: a type, or a statement about a parameter. -/
def resultTag : R := seq [sym ":", oneOf [
  seq [kw "asserts", either (kw "this") (call .identifier), optSeq [kw "is", call .type]],
  seq [either (kw "this") (call .identifier), kw "is", call .type],
  call .type]]

/-- Type parameters, parameters and the type of the result. -/
def signature (d : Dialect) : R := seq [
  typedOpt d (call .typeParameters), field "parameters" (call .parameters), typedOpt d resultTag]

/-- A type that is made from functions. -/
def functionType : R := seq [opt (kw "abstract"), opt (kw "new"), opt (call .typeParameters),
  call .parameters, sym "=>", oneOf [
    seq [kw "asserts", either (kw "this") (call .identifier), optSeq [kw "is", call .type]],
    seq [either (kw "this") (call .identifier), kw "is", call .type],
    call .type]]

/-- A dotted name with type arguments. -/
def namedType : R := seq [
  either (token (Scan.wordExcept isStart isInner
    (reserved.filter fun w => !(["null", "this", "void", "true", "false"].contains w))))
    (seq [kw "import", parens (call .type)]),
  manySeq [symNot "." ['.'], token anyWord], opt (call .typeArguments)]

/-- An element of a tuple type. -/
def tupleElement : R := oneOf [
  seq [opt (sym "..."), call .identifier, opt (sym "?"), sym ":", call .type],
  seq [opt (sym "..."), call .type, opt (sym "?")]]

/-- A sign with `readonly` or `?` in a mapped type. -/
def mappedSign : R := opt (syms ["+", "-"])

/-- A member of an object type. -/
def typeMember : R := oneOf [
  seq [mappedSign, opt (kw "readonly"), brackets (either
      (seq [call .identifier, kw "in", call .type, optSeq [kw "as", call .type]])
      (seq [call .identifier, sym ":", call .type])),
    opt (seq [mappedSign, sym "?"]), opt typeTag],
  seq [opt (kw "new"), signature .typescript],
  seq [many (seq [oneOf [kw "readonly", kw "get", kw "set", kw "static", kw "public", kw "private",
        kw "protected", kw "async"], absent (syms ["(", "?", ":", "<", ",", ";", "\x7d"])]),
    memberName, opt (sym "?"), either (signature .typescript) (opt typeTag)]]

/-- The rules of the type symbols. -/
def typeRule : R := either functionType (seq [
  opt (syms ["|", "&"]),
  sepBy1 (either functionType (call .typePrimary)) (syms ["|", "&"]),
  optSeq [unbroken, kw "extends", call .type, sym "?", call .type, sym ":", call .type]])

/-- A type without operators between types. -/
def typePrimaryRule : R := seq [
  manySeq [oneOf [kw "keyof", kw "readonly", kw "unique", kw "infer"],
    absent (syms [",", ">", ")", ";", "=", "|", "&", "\x7d", "]"])],
  oneOf [
    seq [kw "typeof", either (seq [kw "import", parens (call .type)])
      (either (kw "this") (call .identifier)),
      manySeq [symNot "." ['.'], token (Scan.andThen (Scan.optional (Scan.text "#")) anyWord)],
      opt (call .typeArguments)],
    parens (call .type),
    brackets (commas tupleElement),
    call .objectType,
    token string,
    seq [opt (sym "-"), token number],
    template,
    namedType,
    sym "*"],
  manySeq [unbroken, brackets (opt (call .type))]]

/-- Members between braces, divided by commas, semicolons or line feeds. -/
def objectTypeRule : R :=
  let divider : R := either (sym ",") semicolon
  braces (seq [opt (syms [",", ";"]), optSeq [sepBy1 typeMember divider, opt divider]])

/-- Types between angle brackets. -/
def typeArgumentsRule : R := seq [sym "<", commas1 (call .type), sym ">"]

/-- Type parameters between angle brackets. -/
def typeParametersRule : R := seq [sym "<", commas1 (seq [
  manySeq [oneOf [kw "const", kw "in", kw "out"], ahead (token anyWord)], call .identifier,
  optSeq [kw "extends", call .type], optSeq [equals, call .type]]), sym ">"]

end SourceChunks.Script
