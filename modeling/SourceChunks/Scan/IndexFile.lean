import SourceChunks.Files.Tree

/-!
# Index files

The bytes in which version control keeps its index: a header of twelve bytes, then the entries.
Each has sixty-two bytes before its path, two of which are flags with the stage; two more follow
them if the flags say so.  The path ends with a zero byte, and zero bytes fill the entry up to a
multiple of eight.
-/

namespace SourceChunks.IndexFile

/-- The number that some bytes write, the highest first. -/
def number (bytes : Bytes) : Nat := bytes.foldl (fun n b => n * 256 + b.toNat) 0

/-- The bytes at the beginning of an index. -/
def signature : Bytes := Bytes.encode "DIRC"

/-- Bytes of an entry before its path. -/
def entryHead : Nat := 62

/-- One entry, and the bytes after it. -/
def readEntry? (bytes : Bytes) : Option (TrackedEntry × Bytes) :=
  let flags := number ((bytes.drop 60).take 2)
  let head := entryHead + (if flags / 0x4000 % 2 = 1 then 2 else 0)
  let path := (bytes.drop head).takeWhile (· != 0)
  let length := (head + path.length) / 8 * 8 + 8
  if bytes.length < length then none
  else some (⟨path, flags / 0x1000 % 4⟩, bytes.drop length)

/-- Some entries, one after the other. -/
def readEntries? : Nat → Bytes → Option (List TrackedEntry)
  | 0, _ => some []
  | count + 1, bytes => do
    let (e, rest) ← readEntry? bytes
    return e :: (← readEntries? count rest)

/-- **The entries of an index**, unless its bytes are damaged or of another version. -/
def entries? (bytes : Bytes) : Option (List TrackedEntry) :=
  let version := number ((bytes.drop 4).take 4)
  if bytes.take 4 = signature ∧ (version = 2 ∨ version = 3) then
    readEntries? (number ((bytes.drop 8).take 4)) (bytes.drop 12)
  else none

end SourceChunks.IndexFile
