import SourceChunks.Chunk.Basic
import SourceChunks.Chunk.Id
import SourceChunks.Path
import SourceChunks.Registry
import SourceChunks.Text.Blank
import SourceChunks.Text.Lines

/-!
# Source files

A file with its lines, ready to be cut.  Content is always cut on line boundaries, so a chunk's
text can be had from its lines alone, carriage returns included.
-/

namespace SourceChunks

/-- Does a text begin with another one? -/
def beginsWith (s beginning : String) : Bool := beginning.toList.isPrefixOf s.toList

/-- **Import lines**: those of the first `limit` lines that, trimmed, begin with one of the given
texts.  They are returned trimmed, in order. -/
def importLines (beginnings : List String) (limit : Nat) (lines : List String) : List String :=
  ((lines.take limit).map trim).filter fun l => beginnings.any (beginsWith l)

/-- **A source file**, ready to be cut into chunks. -/
structure SourceFile where
  /-- The path that chunks carry. -/
  path : String
  /-- The whole text. -/
  content : String
  /-- The text cut at its line feeds. -/
  lines : List String
  /-- Name of the language, or `"text"`. -/
  language : String
  /-- Import lines at its head. -/
  imports : List String
deriving Repr

namespace SourceFile

/-- The language of a file that no row of the registry claims. -/
def plainText : String := "text"

/-- A file of a language that has been resolved. -/
def ofText (path content : String) (loaded? : Option Registry.Entry) (importScanLines : Nat) :
    SourceFile :=
  let lines := linesOf content
  { path, content, lines
    language := (loaded?.map (·.row.name)).getD plainText
    imports :=
      (loaded?.map fun e => importLines e.row.importPrefixes importScanLines lines).getD [] }

/-- The number of lines, with the empty one after a final line feed. -/
def lineCount (f : SourceFile) : Nat := f.lines.length

/-- The lines of a span. -/
def linesIn (f : SourceFile) (s : LineSpan) : List String :=
  (f.lines.drop s.start).take (s.stop + 1 - s.start)

/-- **The text of a span**, as far as it lies in the file. -/
def slice (f : SourceFile) (s : LineSpan) : String := joinLines (f.linesIn (s.clamp f.lineCount))

/-- **The chunk of a unit.** -/
def chunkOf (f : SourceFile) (u : StructuralUnit) : Chunk :=
  let span := u.span.clamp f.lineCount
  let content := f.slice span
  { id := ChunkId.ofParts f.path u.kind u.name span.start
    filepath := f.path
    content := content
    language := f.language
    kind := u.kind
    name := u.name
    lineStart := span.start + 1
    lineEnd := span.stop + 1
    metadata := {
      imports := f.imports
      fileSize := f.content.utf8ByteSize
      chunkSize := some content.utf8ByteSize
      nodeType := some u.nodeKind } }

/-- The name of a whole-file chunk: the file name of the path, or the path if it has none. -/
def wholeName (f : SourceFile) : String :=
  ((Path.ofString f.path).fileName?.map Bytes.decode).getD f.path

/-- **The chunk of the whole file.** -/
def wholeChunk (f : SourceFile) : Chunk :=
  let name := f.wholeName
  { id := ChunkId.ofParts f.path .moduleFile (some name) 0
    filepath := f.path
    content := f.content
    language := f.language
    kind := .moduleFile
    name := some name
    lineStart := 1
    lineEnd := f.lineCount
    metadata := {
      imports := f.imports
      fileSize := f.content.utf8ByteSize
      lineCount := some f.lineCount } }

end SourceFile

end SourceChunks
