import SourceChunks.Chunk.Basic
import SourceChunks.Log
import SourceChunks.Registry

/-!
# Extraction of structural units

A text is parsed once and every query of its language is run over the tree, one after the other.
Each capture whose name is a unit kind gives a unit, named by the first `@name` capture of the same
match if that node lies directly inside the unit.
-/

namespace SourceChunks

/-- **Settings of a chunker.** -/
structure ChunkerConfig where
  /-- Import lines are looked for in this many lines at the head of a file. -/
  importScanLines : Nat := 50
  /-- Does a file with a part that fits no rule count as having no units? -/
  fallbackOnSyntaxError : Bool := true
deriving DecidableEq, Repr

namespace ChunkerConfig

/-- Lines that are looked through for imports unless settings say otherwise. -/
def defaultImportScanLines : Nat := 50

/-- Settings that keep the units of a file even if a part of it fits no rule. -/
def lenient : ChunkerConfig := { fallbackOnSyntaxError := false }

/-- What is wrong with some settings. -/
inductive Problem where
  /-- No line is looked through for imports. -/
  | noImportLines
deriving DecidableEq, Repr

/-- The text of a problem. -/
def Problem.message : Problem → String
  | .noImportLines => "import_scan_lines must be > 0"

/-- What a chunker says when it refuses settings. -/
def Problem.refusal (p : Problem) : String := "Invalid configuration: " ++ p.message

/-- The problem of some settings, if there is one. -/
def problem? (c : ChunkerConfig) : Option Problem :=
  if c.importScanLines = 0 then some .noImportLines else none

end ChunkerConfig

/-- Why a text has no units to offer. -/
inductive ParseFailure where
  /-- A part of the text fits no rule of the language. -/
  | syntaxErrors (language : String)
deriving DecidableEq, Repr

/-- The text of a failure. -/
def ParseFailure.message : ParseFailure → String
  | .syntaxErrors language => "Parse error: " ++ language ++ " source contains syntax errors"

namespace Extraction

/-- The name of the captures that name units. -/
def nameCapture : String := "name"

/-- The name that a match gives to one of its units: the text of the first `@name` capture, if
that node lies directly inside the unit. -/
def nameOf (text : List Char) (captures : List Capture) (unit : PlacedNode) : Option String :=
  match captures.find? (·.name == nameCapture) with
  | some c => if unit.isParentOf c.place then some (SyntaxTree.textOf text c.place.node) else none
  | none => none

/-- The unit of one capture, if its name is a unit kind. -/
def unitOf? (text : List Char) (captures : List Capture) (c : Capture) : Option StructuralUnit :=
  (ChunkKind.ofCapture? c.name).map fun kind =>
    { span := LineSpan.between (SyntaxTree.rowAt text c.place.node.start)
        (SyntaxTree.rowAt text c.place.node.stop)
      kind := kind
      name := nameOf text captures c.place
      nodeKind := c.place.node.kind }

/-- **The units of one match**, in the order of its captures. -/
def unitsOfMatch (text : List Char) (captures : List Capture) : List StructuralUnit :=
  captures.filterMap (unitOf? text captures)

/-- The units that one query finds in a tree. -/
def unitsOfQuery (text : List Char) (tree : SyntaxTree) (q : Query) : List StructuralUnit :=
  (q.matchesIn text tree).flatMap (unitsOfMatch text)

/-- **The units of a text**, query by query.  Fails if the settings are strict and a part of the
text fits no rule. -/
def run (config : ChunkerConfig) (e : Registry.Entry) (content : String) :
    Except ParseFailure (List StructuralUnit) :=
  let text := content.toList
  let tree := e.row.language.parse text
  if config.fallbackOnSyntaxError && tree.hasError then .error (.syntaxErrors e.row.name)
  else .ok (e.queries.flatMap (unitsOfQuery text tree))

/-- What an attempt to extract comes to: a failure is no match. -/
def ofAttempt : Option (Except ParseFailure (List StructuralUnit)) → Extraction
  | some (.ok units) => ofUnits units
  | some (.error _) | none => .unmatched

/-- What the log says about an attempt. -/
def logOfAttempt (path : String) :
    Option (Except ParseFailure (List StructuralUnit)) → List LogLine
  | some (.ok []) => [⟨.debug, "No structural units in " ++ path⟩]
  | some (.error e) =>
    [⟨.warn, "Structural extraction failed for " ++ path ++ ", using whole file: " ++ e.message⟩]
  | _ => []

/-- **Extraction from a text** whose language has been resolved. -/
def ofText (config : ChunkerConfig) (loaded? : Option Registry.Entry) (content : String) :
    Extraction :=
  ofAttempt (loaded?.map (run config · content))

end Extraction

end SourceChunks
