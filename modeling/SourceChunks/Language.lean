import SourceChunks.Language.Cpp
import SourceChunks.Language.Go
import SourceChunks.Language.Java
import SourceChunks.Language.Python
import SourceChunks.Language.Rust
import SourceChunks.Language.Script

/-!
# Languages

The languages that can be parsed, with the parser and the words of each.
-/

namespace SourceChunks

/-- **A language that can be parsed.** -/
inductive Language where
  | python
  | javascript
  | typescript
  | tsx
  | java
  | cpp
  | rust
  | go
deriving DecidableEq, Repr

namespace Language

/-- Parses a text. -/
def parse (l : Language) (text : List Char) : SyntaxTree :=
  match l with
  | .python => Python.grammar.parse text
  | .javascript => (Script.grammar .javascript).parse text
  | .typescript => (Script.grammar .typescript).parse text
  | .tsx => (Script.grammar .tsx).parse text
  | .java => Java.grammar.parse text
  | .rust => Rust.grammar.parse text
  | .go => Go.grammar.parse text
  | .cpp => Cpp.grammar.parse text

/-- The words that queries for a language may use. -/
def vocabulary : Language → Query.Vocabulary
  | .python => Python.vocabulary
  | .javascript | .typescript | .tsx => Script.vocabulary
  | .java => Java.vocabulary
  | .rust => Rust.vocabulary
  | .go => Go.vocabulary
  | .cpp => Cpp.vocabulary

theorem isNested_parse (l : Language) (text : List Char) :
    (l.parse text).root.isNested 0 text.length = true := by
  cases l <;> exact Parsing.Grammar.isNested_parse _ text

/-- **The parser of a language.** -/
def parser (l : Language) : Parser where
  parse := l.parse
  compile? := Query.compile? l.vocabulary
  isNested_parse := l.isNested_parse

instance : Coe Language Parser := ⟨parser⟩

end Language

end SourceChunks
