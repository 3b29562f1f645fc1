import SourceChunks.Chunk.Kind
import SourceChunks.Digest.Hex
import SourceChunks.Digest.Sha256

/-!
# Chunk ids

The id of a chunk is the beginning of a hash, so it is stable: it depends on path, kind, name and
first line and on nothing else.
-/

namespace SourceChunks.ChunkId

/-- Hexadecimal digits of an id. -/
def length : Nat := 16

/-- The word that stands for an absent name. -/
def anonymous : String := "anonymous"

/-- The text that is hashed: four parts with colons between them.  `start` counts from zero. -/
def key (path : String) (kind : ChunkKind) (name : Option String) (start : Nat) : String :=
  path ++ ":" ++ kind.name ++ ":" ++ name.getD anonymous ++ ":" ++ toString start

/-- **The id of a chunk.** -/
def ofParts (path : String) (kind : ChunkKind) (name : Option String) (start : Nat) : String :=
  String.ofList
    ((Hex.encodeChars (Sha256.digest (Bytes.encode (key path kind name start)))).take length)

end SourceChunks.ChunkId
