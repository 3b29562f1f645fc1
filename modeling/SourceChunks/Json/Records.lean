import SourceChunks.Chunk.Basic
import SourceChunks.Extraction
import SourceChunks.Json.Record
import SourceChunks.Json.Writer
import SourceChunks.Scan.Stats

/-!
# Records of chunks, settings and statistics

How chunks, their metadata and kinds, chunker settings and scan statistics are written as JSON and
read back.  Optional facts of metadata are left out when they are absent; the name of a chunk is
written as `null`.
-/

namespace SourceChunks.Json

/-! ### Kinds -/

/-- Writes a kind. -/
def writeKind (k : ChunkKind) : List Char := writeText k.name

/-- The kind with a name that has been read. -/
def kindNamed (s : String) : Except ReadError ChunkKind :=
  match ChunkKind.ofName? s with
  | some k => .ok k
  | none => .error .unfit

/-- **Reads a kind**: its name, or an object with its name and `null`. -/
def readKind : Reader ChunkKind := fun cs =>
  match skipSpaces cs with
  | [] => .error .truncated
  | '"' :: rest => do
    let (s, rest) ← readQuoted [] rest
    .ok (← kindNamed (String.ofList s), rest)
  | '\x7b' :: rest => do
    let (s, rest) ← readText rest
    let k ← kindNamed s
    let ((), rest) ← readNull (← colon rest)
    .ok (k, ← closeObject rest)
  | _ => .error .malformed

/-! ### Metadata -/

/-- Writes metadata. -/
def writeMetadata (m : Metadata) : List Char := writeObject <|
  [("imports", writeList writeText m.imports), ("file_size", writeNat m.fileSize)] ++
  optionalField "chunk_size" writeNat m.chunkSize ++
  optionalField "line_count" writeNat m.lineCount ++
  optionalField "node_type" writeText m.nodeType

/-- Metadata of which fields may be missing. -/
structure MetadataDraft where
  imports : Option (List String) := none
  fileSize : Option Nat := none
  chunkSize : Option (Option Nat) := none
  lineCount : Option (Option Nat) := none
  nodeType : Option (Option String) := none

/-- The fields of metadata. -/
def metadataFields : List (Field MetadataDraft) := [
  .of "imports" (·.imports) (fun d a => { d with imports := some a }) (readList readText),
  .of "file_size" (·.fileSize) (fun d a => { d with fileSize := some a }) readNat,
  .of "chunk_size" (·.chunkSize) (fun d a => { d with chunkSize := some a })
    (readOption readNat) true,
  .of "line_count" (·.lineCount) (fun d a => { d with lineCount := some a })
    (readOption readNat) true,
  .of "node_type" (·.nodeType) (fun d a => { d with nodeType := some a })
    (readOption readText) true]

/-- Metadata without missing fields. -/
def MetadataDraft.finish (d : MetadataDraft) : Option Metadata := do
  return {
    imports := ← d.imports
    fileSize := ← d.fileSize
    chunkSize := d.chunkSize.join
    lineCount := d.lineCount.join
    nodeType := d.nodeType.join }

/-- **Reads metadata.** -/
def readMetadata : Reader Metadata := readRecord metadataFields {} MetadataDraft.finish

/-! ### Chunks -/

/-- **Writes a chunk.** -/
def writeChunk (c : Chunk) : List Char := writeObject [
  ("id", writeText c.id),
  ("filepath", writeText c.filepath),
  ("content", writeText c.content),
  ("language", writeText c.language),
  ("chunk_type", writeKind c.kind),
  ("name", writeOption writeText c.name),
  ("line_start", writeNat c.lineStart),
  ("line_end", writeNat c.lineEnd),
  ("metadata", writeMetadata c.metadata)]

/-- A chunk of which fields may be missing. -/
structure ChunkDraft where
  id : Option String := none
  filepath : Option String := none
  content : Option String := none
  language : Option String := none
  kind : Option ChunkKind := none
  name : Option (Option String) := none
  lineStart : Option Nat := none
  lineEnd : Option Nat := none
  metadata : Option Metadata := none

/-- The fields of a chunk. -/
def chunkFields : List (Field ChunkDraft) := [
  .of "id" (·.id) (fun d a => { d with id := some a }) readText,
  .of "filepath" (·.filepath) (fun d a => { d with filepath := some a }) readText,
  .of "content" (·.content) (fun d a => { d with content := some a }) readText,
  .of "language" (·.language) (fun d a => { d with language := some a }) readText,
  .of "chunk_type" (·.kind) (fun d a => { d with kind := some a }) readKind,
  .of "name" (·.name) (fun d a => { d with name := some a }) (readOption readText),
  .of "line_start" (·.lineStart) (fun d a => { d with lineStart := some a }) readNat,
  .of "line_end" (·.lineEnd) (fun d a => { d with lineEnd := some a }) readNat,
  .of "metadata" (·.metadata) (fun d a => { d with metadata := some a }) readMetadata]

/-- A chunk without missing fields; only the name may be left out. -/
def ChunkDraft.finish (d : ChunkDraft) : Option Chunk := do
  return {
    id := ← d.id
    filepath := ← d.filepath
    content := ← d.content
    language := ← d.language
    kind := ← d.kind
    name := d.name.join
    lineStart := ← d.lineStart
    lineEnd := ← d.lineEnd
    metadata := ← d.metadata }

/-- **Reads a chunk.** -/
def readChunk : Reader Chunk := readRecord chunkFields {} ChunkDraft.finish

/-! ### Settings of a chunker -/

/-- Writes settings. -/
def writeConfig (c : ChunkerConfig) : List Char := writeObject [
  ("import_scan_lines", writeNat c.importScanLines),
  ("fallback_on_syntax_error", writeBool c.fallbackOnSyntaxError)]

/-- Settings of which fields may be missing. -/
structure ConfigDraft where
  importScanLines : Option Nat := none
  fallbackOnSyntaxError : Option Bool := none

/-- The fields of settings. -/
def configFields : List (Field ConfigDraft) := [
  .of "import_scan_lines" (·.importScanLines)
    (fun d a => { d with importScanLines := some a }) readNat,
  .of "fallback_on_syntax_error" (·.fallbackOnSyntaxError)
    (fun d a => { d with fallbackOnSyntaxError := some a }) readBool]

/-- Settings without missing fields. -/
def ConfigDraft.finish (d : ConfigDraft) : Option ChunkerConfig := do
  return ⟨← d.importScanLines, ← d.fallbackOnSyntaxError⟩

/-- **Reads settings.** -/
def readConfig : Reader ChunkerConfig := readRecord configFields {} ConfigDraft.finish

/-! ### Statistics -/

/-- Writes counts by name. -/
def writeTally (t : Tally) : List Char := writeObject (t.map fun (name, k) => (name, writeNat k))

/-- **Reads counts by name**; of two counts for one name the later one holds. -/
def readTally : Reader Tally := fun cs =>
  match skipSpaces cs with
  | '\x7b' :: rest => do
    let step (t : Tally) (name : String) : Reader Tally := fun cs => do
      let (k, rest) ← readNat (← colon cs)
      .ok (t.set name k, rest)
    let (t, rest) ← foldFields step (rest.length + 1) true [] rest
    .ok (t, ← closeObject rest)
  | cs => .error (mismatch cs)

/-- Writes statistics. -/
def writeStats (s : ScanStats) : List Char := writeObject [
  ("files", writeNat s.files),
  ("chunks", writeNat s.chunks),
  ("fallback_files", writeNat s.fallbackFiles),
  ("skipped", writeNat s.skipped),
  ("total_lines", writeNat s.totalLines),
  ("languages", writeTally s.languages),
  ("read_errors", writeNat s.readErrors)]

/-- Statistics of which fields may be missing. -/
structure StatsDraft where
  files : Option Nat := none
  chunks : Option Nat := none
  fallbackFiles : Option Nat := none
  skipped : Option Nat := none
  totalLines : Option Nat := none
  languages : Option Tally := none
  readErrors : Option Nat := none

/-- The fields of statistics. -/
def statsFields : List (Field StatsDraft) := [
  .of "files" (·.files) (fun d a => { d with files := some a }) readNat,
  .of "chunks" (·.chunks) (fun d a => { d with chunks := some a }) readNat,
  .of "fallback_files" (·.fallbackFiles) (fun d a => { d with fallbackFiles := some a }) readNat,
  .of "skipped" (·.skipped) (fun d a => { d with skipped := some a }) readNat,
  .of "total_lines" (·.totalLines) (fun d a => { d with totalLines := some a }) readNat,
  .of "languages" (·.languages) (fun d a => { d with languages := some a }) readTally,
  .of "read_errors" (·.readErrors) (fun d a => { d with readErrors := some a }) readNat]

/-- Statistics without missing fields. -/
def StatsDraft.finish (d : StatsDraft) : Option ScanStats := do
  return {
    files := ← d.files
    chunks := ← d.chunks
    fallbackFiles := ← d.fallbackFiles
    skipped := ← d.skipped
    totalLines := ← d.totalLines
    languages := ← d.languages
    readErrors := ← d.readErrors }

/-- **Reads statistics.** -/
def readStats : Reader ScanStats := readRecord statsFields {} StatsDraft.finish

/-! ### Lines -/

/-- **A chunk as one line** of bytes, with the line feed at its end. -/
def chunkLine (c : Chunk) : Bytes := Bytes.encodeChars (writeChunk c) ++ [0x0A]

end SourceChunks.Json
