import SourceChunks.Chunk.Kind

/-!
# Chunks

The records that chunking produces, and the units and line spans that they are cut from.
-/

namespace SourceChunks

/-- **A range of lines**, counted from zero, both ends included. -/
structure LineSpan where
  /-- First line. -/
  start : Nat
  /-- Last line. -/
  stop : Nat
deriving DecidableEq, Repr

namespace LineSpan

/-- The span between two lines; an end before the start is raised to it. -/
def between (start stop : Nat) : LineSpan := ⟨start, max stop start⟩

/-- The part of a span inside a file of `count` lines: the end is lowered to the last line, then
the start to the end. -/
def clamp (s : LineSpan) (count : Nat) : LineSpan :=
  let stop := min s.stop (count - 1)
  ⟨min s.start stop, stop⟩

end LineSpan

/-- **A unit found in a file**, free of any grammar. -/
structure StructuralUnit where
  /-- The lines of the unit. -/
  span : LineSpan
  /-- What it is. -/
  kind : ChunkKind
  /-- Its name, unless it is anonymous. -/
  name : Option String
  /-- The grammar's word for it. -/
  nodeKind : String
deriving DecidableEq, Repr

/-- **What extraction found**: some units, or nothing to go by. -/
inductive Extraction where
  /-- Structural units, in query order. -/
  | matched (units : List StructuralUnit)
  /-- No grammar, no units, or a failure to parse. -/
  | unmatched
deriving DecidableEq, Repr

namespace Extraction

/-- No units is the same as no match. -/
def ofUnits : List StructuralUnit → Extraction
  | [] => .unmatched
  | us => .matched us

/-- Did extraction find units? -/
def isMatched : Extraction → Bool
  | .matched _ => true
  | .unmatched => false

end Extraction

/-- Facts about a chunk and the file it comes from. -/
structure Metadata where
  /-- Import lines from the head of the file. -/
  imports : List String
  /-- Bytes of the file. -/
  fileSize : Nat
  /-- Bytes of the chunk (structural chunks). -/
  chunkSize : Option Nat := none
  /-- Lines of the file (whole-file chunks). -/
  lineCount : Option Nat := none
  /-- The grammar's word for the unit (structural chunks). -/
  nodeType : Option String := none
deriving DecidableEq, Repr

/-- **A chunk**: one structural unit or one whole file. -/
structure Chunk where
  /-- Sixteen hexadecimal digits made from path, kind, name and first line. -/
  id : String
  /-- Path below the repository root. -/
  filepath : String
  /-- The text of lines `lineStart` to `lineEnd`. -/
  content : String
  /-- Name of the grammar, or `"text"`. -/
  language : String
  kind : ChunkKind
  /-- Name of the unit, unless it is anonymous. -/
  name : Option String
  /-- First line, counted from one. -/
  lineStart : Nat
  /-- Last line, counted from one. -/
  lineEnd : Nat
  metadata : Metadata
deriving DecidableEq, Repr

/-- Is the chunk a whole file? -/
def Chunk.isWholeFile (c : Chunk) : Bool := c.kind == .moduleFile

end SourceChunks
