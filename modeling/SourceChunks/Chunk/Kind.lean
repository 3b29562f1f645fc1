/-!
# Kinds of chunks

The seven kinds of structural units that a query can capture, and the whole file.
-/

namespace SourceChunks

/-- **What a chunk is.** -/
inductive ChunkKind where
  | function
  | method
  | classUnit
  | interface
  | struct
  | impl
  | type
  /-- The whole file. -/
  | moduleFile
deriving DecidableEq, Repr

namespace ChunkKind

/-- Every kind, in order of declaration. -/
def all : List ChunkKind :=
  [.function, .method, .classUnit, .interface, .struct, .impl, .type, .moduleFile]

/-- The name of a kind in ids and records. -/
def name : ChunkKind → String
  | .function => "function"
  | .method => "method"
  | .classUnit => "class"
  | .interface => "interface"
  | .struct => "struct"
  | .impl => "impl"
  | .type => "type"
  | .moduleFile => "module_file"

instance : ToString ChunkKind := ⟨name⟩

/-- The kind with a given name. -/
def ofName? (s : String) : Option ChunkKind := all.find? (·.name == s)

/-- The unit kind that a query capture stands for: every name but that of the whole file. -/
def ofCapture? (s : String) : Option ChunkKind :=
  match ofName? s with
  | some .moduleFile => none
  | k => k

end ChunkKind

end SourceChunks
