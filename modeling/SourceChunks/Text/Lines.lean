/-!
# Lines

A text is cut at every `'\n'` and nowhere else: carriage returns stay inside their lines, a final
line feed leaves an empty last line, and the empty text has one empty line.  `joinLines` puts the
lines back together.
-/

namespace SourceChunks

/-- Cuts a list at every `sep`.  `line` holds the present piece in reverse order and `done` the
finished pieces, last first. -/
def splitOnto [BEq α] (sep : α) (done : List (List α)) (line : List α) : List α → List (List α)
  | [] => (line.reverse :: done).reverse
  | a :: rest =>
    if a == sep then splitOnto sep (line.reverse :: done) [] rest
    else splitOnto sep done (a :: line) rest

/-- The pieces between the occurrences of `sep`: one more than there are separators. -/
def splitAt [BEq α] (sep : α) (as : List α) : List (List α) := splitOnto sep [] [] as

/-- The lines of a text. -/
def linesOf (s : String) : List String := (splitAt '\n' s.toList).map String.ofList

/-- Lines put back together, with a line feed between two neighbours. -/
def joinLines (ls : List String) : String := String.intercalate "\n" ls

end SourceChunks
