import SourceChunks.Language.Script.Statements

/-!
# Scripts

The grammar of each dialect, put together from types, expressions and statements.
-/

namespace SourceChunks.Script

open Parsing Parsing.Rule

/-- The rule of each symbol. -/
def rule (d : Dialect) : Symbol → R
  | .statement => statementRule d
  | .declaration => declarationRule d
  | .block => node "statement_block" (braces (many (call .statement)))
  | .expression => expressionRule
  | .expressions => sepBy1 (call .expression) (sym ",")
  | .binary => binaryRule d
  | .unary => unaryRule d
  | .suffixed => both (call .atom) (many (trailer d))
  | .atom => atomRule d
  | .arguments => argumentsRule
  | .arrowFunction => arrowRule d
  | .functionTail => both (signature d) (field "body" (call .block))
  | .pattern => patternRule
  | .parameters => parametersRule d
  | .classBody => classBodyRule d
  | .method => methodRule d false
  | .object => objectRule
  | .markup => markupRule d
  | .decorator => decoratorRule
  | .type => typeRule
  | .typePrimary => typePrimaryRule
  | .typeArguments => typeArgumentsRule
  | .typeParameters => typeParametersRule
  | .objectType => objectTypeRule
  | .identifier => token (Scan.wordExcept isStart isInner reserved)

/-- **The grammar of a dialect.** -/
def grammar (d : Dialect) : Grammar Symbol where
  index := Symbol.ctorIdx
  rule := rule d
  gap := gapOf extra
  root := "program"
  opening := opt (token (Scan.lineComment "#!"))
  item := call .statement

/-- Words of the grammar. -/
def vocabulary : Query.Vocabulary where
  kinds := ["program", "function_declaration", "generator_function_declaration",
    "function_signature",
    "method_definition", "class_declaration", "abstract_class_declaration", "class_body",
    "interface_declaration", "interface_body", "arrow_function", "statement_block", "decorator",
    "identifier", "type_identifier", "property_identifier", "private_property_identifier", "string",
    "number", "computed_property_name"]
  fields := ["name", "body", "parameters"]

end SourceChunks.Script
