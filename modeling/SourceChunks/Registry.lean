import SourceChunks.Language
import SourceChunks.Path
import SourceChunks.Text.Lowercase

/-!
# The registry of languages

A row names a language, its file extensions, its queries and how its import lines begin.  Loading
a row has its parser read the queries and drops those that cannot be read.  A path belongs to the
first row that lists its extension, in lower case.
-/

namespace SourceChunks

namespace Registry

/-- **A supported language** as the table describes it. -/
structure Row where
  /-- Name that chunks carry. -/
  name : String
  /-- Extensions in lower case, without the dot. -/
  extensions : List String
  /-- The parser of the language. -/
  language : Parser
  /-- Texts of the queries, in the order in which they run. -/
  queries : List String
  /-- Beginnings of import lines. -/
  importPrefixes : List String

/-- A row with its queries read. -/
structure Entry where
  /-- The row it comes from. -/
  row : Row
  /-- The queries of the row that could be read, in order. -/
  queries : List Query

/-- Reads the queries of a row and drops those that cannot be read. -/
def Row.load (row : Row) : Entry :=
  ⟨row, row.queries.filterMap row.language.compile?⟩

/-! ### The built-in table -/

/-- Queries of both TypeScript rows. -/
def typescriptQueries : List String := [
  "(function_declaration name: (identifier) @name) @function",
  "(method_definition name: (property_identifier) @name) @method",
  "(class_declaration name: (type_identifier) @name) @class",
  "(interface_declaration name: (type_identifier) @name) @interface"]

/-- Beginnings of import lines in JavaScript and TypeScript. -/
def scriptImportPrefixes : List String := ["import ", "const ", "require("]

/-- **The supported languages.**  No extension stands in two rows. -/
def table : List Row := [
  { name := "python", extensions := ["py"], language := Language.python,
    queries := [
      "(function_definition name: (identifier) @name) @function",
      "(class_definition name: (identifier) @name) @class"],
    importPrefixes := ["import ", "from "] },
  { name := "javascript", extensions := ["js", "jsx"], language := Language.javascript,
    queries := [
      "(function_declaration name: (identifier) @name) @function",
      "(method_definition name: (property_identifier) @name) @method",
      "(class_declaration name: (identifier) @name) @class",
      "(arrow_function) @function"],
    importPrefixes := scriptImportPrefixes },
  { name := "typescript", extensions := ["ts"], language := Language.typescript,
    queries := typescriptQueries, importPrefixes := scriptImportPrefixes },
  { name := "typescript", extensions := ["tsx"], language := Language.tsx,
    queries := typescriptQueries, importPrefixes := scriptImportPrefixes },
  { name := "java", extensions := ["java"], language := Language.java,
    queries := [
      "(method_declaration name: (identifier) @name) @method",
      "(class_declaration name: (identifier) @name) @class",
      "(interface_declaration name: (identifier) @name) @interface"],
    importPrefixes := ["import "] },
  { name := "cpp", extensions := ["cpp", "cc", "cxx", "c", "h", "hpp"], language := Language.cpp,
    queries := [
      "(function_definition declarator: (function_declarator declarator: (identifier) @name)) @function",
      "(class_specifier name: (type_identifier) @name) @class"],
    importPrefixes := [] },
  { name := "rust", extensions := ["rs"], language := Language.rust,
    queries := [
      "(function_item name: (identifier) @name) @function",
      "(struct_item name: (type_identifier) @name) @struct",
      "(impl_item type: (type_identifier) @name) @impl"],
    importPrefixes := [] },
  { name := "go", extensions := ["go"], language := Language.go,
    queries := [
      "(function_declaration name: (identifier) @name) @function",
      "(method_declaration name: (field_identifier) @name) @method",
      "(type_declaration (type_spec name: (type_identifier) @name)) @type"],
    importPrefixes := [] }]

end Registry

/-- **A registry**: loaded rows in order. -/
structure Registry where
  /-- The rows, first come first served. -/
  entries : List Registry.Entry

namespace Registry

/-- The registry of some rows. -/
def ofRows (rows : List Row) : Registry := ⟨rows.map Row.load⟩

/-- The registry of the supported languages. -/
def builtin : Registry := ofRows table

/-- The extension of a path in lower case, if it is text. -/
def lowerExtension? (p : Path) : Option String :=
  p.extension?.bind fun e => (Bytes.decode? e).map Lowercase.ofString

/-- **The language of a path**: the first row that lists its extension. -/
def resolve? (r : Registry) (p : Path) : Option Entry :=
  (lowerExtension? p).bind fun e => r.entries.find? (·.row.extensions.contains e)

/-- The queries of the first row with a given name. -/
def queriesFor (r : Registry) (name : String) : List Query :=
  ((r.entries.find? (·.row.name == name)).map (·.queries)).getD []

/-! ### Describing an entry -/

/-- A character as it is written between double quotes in a description. -/
def quoteChar (c : Char) : String :=
  if c == '"' then "\\\""
  else if c == '\\' then "\\\\"
  else if c == '\n' then "\\n"
  else if c == '\r' then "\\r"
  else if c == '\t' then "\\t"
  else if c.toNat == 0 then "\\0"
  else if c.toNat < 0x20 || c.toNat == 0x7F then
    "\\u\x7b" ++ String.ofList (Nat.toDigits 16 c.toNat) ++ "\x7d"
  else c.toString

/-- A text between double quotes. -/
def quote (s : String) : String := "\"" ++ String.join (s.toList.map quoteChar) ++ "\""

/-- A list between square brackets. -/
def bracketed (items : List String) : String := "[" ++ String.intercalate ", " items ++ "]"

/-- One line that describes an entry: name, extensions and query texts. -/
def Entry.describe (e : Entry) : String :=
  "Grammar \x7b name: " ++ quote e.row.name ++
  ", extensions: " ++ bracketed (e.row.extensions.map quote) ++
  ", queries: " ++
    bracketed (e.queries.map fun q => "StructuralQuery \x7b source: " ++ quote q.source ++
      " \x7d") ++
  " \x7d"

end Registry

end SourceChunks
