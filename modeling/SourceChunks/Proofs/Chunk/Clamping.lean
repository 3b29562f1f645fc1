import SourceChunks.Proofs.Chunk.LineSpans
import SourceChunks.Proofs.Text.Parts

/-!
# Spans that reach outside the file

The span of a unit may begin or end behind the last line, or end before it begins.  It is clamped
where the chunk is made, and once more where the text is cut, which changes nothing (`slice_clamp`).

On a machine the bounds are words of 64 bits, a sum may leave the words and a range may leave the
list.  `sliceOnWords?` and `chunkOnWords?` take the same steps on words and stop at the first one
that cannot be taken; they never stop, and come to the same text and the same chunk
(`sliceOnWords?_eq`, `chunkOnWords?_eq`).
-/

namespace SourceChunks

/-! ### Words -/

namespace Word

/-- The sum of two words, if it is a word. -/
def add? (a b : UInt64) : Option UInt64 :=
  if a.toNat + b.toNat < UInt64.size then some (a + b) else none

/-- The difference of two words, or zero in place of a negative one. -/
def monus (a b : UInt64) : UInt64 := if b ≤ a then a - b else 0

/-- The elements from the place `first` to the place `last`, if these are places of the list. -/
def range? {α : Type} (as : List α) (first last : UInt64) : Option (List α) :=
  (add? last 1).bind fun stop =>
    if first ≤ stop ∧ stop.toNat ≤ as.length then
      some ((as.drop first.toNat).take (stop - first).toNat)
    else none

variable {a b c : UInt64}

theorem add?_eq_some_iff : add? a b = some c ↔ c.toNat = a.toNat + b.toNat := by
  unfold add?
  simp only [UInt64.size]
  split_ifs with h
  · rw [Option.some.injEq, ← UInt64.toNat_inj, UInt64.toNat_add, Nat.mod_eq_of_lt h, eq_comm]
  · have := c.toNat_lt
    simp only [false_iff]
    omega

theorem exists_add? (h : a.toNat + b.toNat < UInt64.size) :
    ∃ c, add? a b = some c ∧ c.toNat = a.toNat + b.toNat := by
  have hsum : add? a b = some (a + b) := if_pos h
  exact ⟨a + b, hsum, add?_eq_some_iff.mp hsum⟩

theorem toNat_monus (a b : UInt64) : (monus a b).toNat = a.toNat - b.toNat := by
  unfold monus
  split_ifs with h
  · exact UInt64.toNat_sub_of_le a b h
  · rw [UInt64.le_iff_toNat_le] at h
    have hzero : (0 : UInt64).toNat = 0 := rfl
    omega

theorem toNat_min (a b : UInt64) : (min a b).toNat = min a.toNat b.toNat := by
  have hmin : min a b = if a ≤ b then a else b := rfl
  rw [hmin]
  split_ifs with h <;> rw [UInt64.le_iff_toNat_le] at h <;> omega

theorem toNat_max (a b : UInt64) : (max a b).toNat = max a.toNat b.toNat := by
  have hmax : max a b = if a ≤ b then b else a := rfl
  rw [hmax]
  split_ifs with h <;> rw [UInt64.le_iff_toNat_le] at h <;> omega

/-- **A range of places of the list is found**: the place behind its last one is a word, since the
number of places is. -/
theorem range?_eq_some {α : Type} {as : List α} {first last : UInt64}
    (hsize : as.length < UInt64.size) (hle : first.toNat ≤ last.toNat)
    (hlast : last.toNat < as.length) :
    range? as first last
      = some ((as.drop first.toNat).take (last.toNat + 1 - first.toNat)) := by
  have hone : (1 : UInt64).toNat = 1 := rfl
  obtain ⟨stop, hstop, hnat⟩ := exists_add? (a := last) (b := 1) (by omega)
  rw [hone] at hnat
  have hfirst : first ≤ stop := by
    rw [UInt64.le_iff_toNat_le]
    omega
  rw [range?, hstop, Option.bind_some, if_pos ⟨hfirst, by omega⟩,
    UInt64.toNat_sub_of_le stop first hfirst, hnat]

end Word

/-- **A range of lines on a machine**: both bounds are words. -/
structure WordSpan where
  start : UInt64
  stop : UInt64

namespace WordSpan

/-- The range of lines. -/
def span (w : WordSpan) : LineSpan := ⟨w.start.toNat, w.stop.toNat⟩

/-- The span between two words; an end before the start is raised to it. -/
def between (start stop : UInt64) : WordSpan := ⟨start, max stop start⟩

/-- The part of a span inside a file of `count` lines. -/
def clamp (w : WordSpan) (count : UInt64) : WordSpan :=
  let stop := min w.stop (Word.monus count 1)
  ⟨min w.start stop, stop⟩

theorem span_between (start stop : UInt64) :
    (between start stop).span = .between start.toNat stop.toNat := by
  rw [between, span, LineSpan.between, Word.toNat_max]

theorem span_clamp (w : WordSpan) (count : UInt64) :
    (w.clamp count).span = w.span.clamp count.toNat := by
  have hone : (1 : UInt64).toNat = 1 := rfl
  simp only [clamp, span, LineSpan.clamp, Word.toNat_min, Word.toNat_monus, hone]

end WordSpan

/-! ### Clamped spans -/

namespace LineSpan

theorem clamp_of_lt {s : LineSpan} {count : Nat} (hle : s.start ≤ s.stop) (hlt : s.stop < count) :
    s.clamp count = s := by
  obtain ⟨start, stop⟩ := s
  simp only at hle hlt
  simp only [clamp, mk.injEq]
  omega

theorem between_of_le {start stop : Nat} (h : start ≤ stop) :
    between start stop = ⟨start, stop⟩ := by
  simp only [between, mk.injEq, true_and]
  omega

end LineSpan

namespace SourceFile

variable {f : SourceFile}

/-- Clamping a span beforehand does not change its text. -/
theorem slice_clamp (f : SourceFile) (s : LineSpan) :
    f.slice (s.clamp f.lineCount) = f.slice s := by
  rw [slice, LineSpan.clamp_clamp, slice]

theorem lineCount_eq (hlines : f.lines = linesOf f.content) :
    f.lineCount = f.content.toList.count '\n' + 1 := by
  rw [lineCount, hlines, linesOf, List.length_map, length_splitAt]

theorem lineCount_ofText_pos (path content : String) (loaded? : Option Registry.Entry)
    (limit : Nat) : 0 < (ofText path content loaded? limit).lineCount := by
  rw [lineCount_eq rfl]
  exact Nat.succ_pos _

/-- There are not many more lines than bytes. -/
theorem lineCount_ofText_le (path content : String) (loaded? : Option Registry.Entry)
    (limit : Nat) : (ofText path content loaded? limit).lineCount ≤ content.utf8ByteSize + 1 := by
  have hreads := reads_ofText path (Bytes.encode content) loaded? limit
  rw [Bytes.decode_encode] at hreads
  have hfeeds : (Bytes.encode content).count Bytes.lineFeed ≤ (Bytes.encode content).length :=
    List.count_le_length
  rw [hreads.lineCount_eq, Bytes.length_lines, ← Bytes.length_encode]
  omega

/-! ### The same on words -/

/-- The number of lines as a word. -/
def wordCount (f : SourceFile) : UInt64 := UInt64.ofNat f.lineCount

/-- **The text of a span, cut on words.**  There is none if a step cannot be taken. -/
def sliceOnWords? (f : SourceFile) (w : WordSpan) : Option String :=
  let v := w.clamp f.wordCount
  (Word.range? f.lines v.start v.stop).map joinLines

/-- **The chunk of a unit, made on words.**  There is none if a step cannot be taken. -/
def chunkOnWords? (f : SourceFile) (w : WordSpan) (kind : ChunkKind) (name : Option String)
    (nodeKind : String) : Option Chunk := do
  let v := w.clamp f.wordCount
  let content ← f.sliceOnWords? (.between v.start v.stop)
  let lineStart ← Word.add? v.start 1
  let lineEnd ← Word.add? v.stop 1
  return {
    id := ChunkId.ofParts f.path kind name v.start.toNat
    filepath := f.path
    content := content
    language := f.language
    kind := kind
    name := name
    lineStart := lineStart.toNat
    lineEnd := lineEnd.toNat
    metadata := {
      imports := f.imports
      fileSize := f.content.utf8ByteSize
      chunkSize := some content.utf8ByteSize
      nodeType := some nodeKind } }

theorem span_clamp_wordCount (hsize : f.lineCount < UInt64.size) (w : WordSpan) :
    (w.clamp f.wordCount).span = w.span.clamp f.lineCount := by
  rw [WordSpan.span_clamp, wordCount, UInt64.toNat_ofNat', Nat.mod_eq_of_lt hsize]

/-- **Cutting on words never stops**: a clamped span has places of the file only. -/
theorem sliceOnWords?_eq (hpos : 0 < f.lineCount) (hsize : f.lineCount < UInt64.size)
    (w : WordSpan) : f.sliceOnWords? w = some (f.slice w.span) := by
  have hclamp := span_clamp_wordCount hsize w
  have hle := w.span.clamp_start_le f.lineCount
  have hlt := w.span.clamp_stop_lt hpos
  rw [← hclamp] at hle hlt
  rw [sliceOnWords?, Word.range?_eq_some hsize hle hlt, Option.map_some, slice, linesIn, ← hclamp]
  rfl

/-- **Making a chunk on words never stops**, and gives the same chunk. -/
theorem chunkOnWords?_eq (hpos : 0 < f.lineCount) (hsize : f.lineCount < UInt64.size)
    (w : WordSpan) (kind : ChunkKind) (name : Option String) (nodeKind : String) :
    f.chunkOnWords? w kind name nodeKind = some (f.chunkOf ⟨w.span, kind, name, nodeKind⟩) := by
  have hclamp := span_clamp_wordCount hsize w
  have hle := w.span.clamp_start_le f.lineCount
  have hlt := w.span.clamp_stop_lt hpos
  have hstart : (w.clamp f.wordCount).start.toNat = (w.span.clamp f.lineCount).start := by
    rw [← hclamp]
    rfl
  have hstop : (w.clamp f.wordCount).stop.toNat = (w.span.clamp f.lineCount).stop := by
    rw [← hclamp]
    rfl
  -- the bounds are put in order once more before the text is cut
  have hbetween : (WordSpan.between (w.clamp f.wordCount).start (w.clamp f.wordCount).stop).span
      = w.span.clamp f.lineCount := by
    rw [WordSpan.span_between, hstart, hstop, LineSpan.between_of_le hle]
  -- the number of a line and the one after it are words
  have hone : (1 : UInt64).toNat = 1 := rfl
  obtain ⟨lineStart, haddStart, hlineStart⟩ :=
    Word.exists_add? (a := (w.clamp f.wordCount).start) (b := 1) (by omega)
  obtain ⟨lineEnd, haddEnd, hlineEnd⟩ :=
    Word.exists_add? (a := (w.clamp f.wordCount).stop) (b := 1) (by omega)
  rw [hone, hstart] at hlineStart
  rw [hone, hstop] at hlineEnd
  simp only [chunkOnWords?, sliceOnWords?_eq hpos hsize, hbetween, haddStart, haddEnd,
    Option.bind_eq_bind, Option.bind_some, hlineStart, hlineEnd, hstart]
  rfl

/-- **Whatever span a unit has, its chunk lies in the file.**  It has the text of the span, which is
the text of the lines that the chunk names, and its id is made with the first of them; a span that
lies in the file is kept.  Nothing on the way leaves the words or the list of lines, for bounds of
64 bits and a text that fits into memory. -/
theorem chunkOf_clamps (path content : String) (loaded? : Option Registry.Entry) (limit : Nat)
    (span : LineSpan) (kind : ChunkKind) (name : Option String) (nodeKind : String) :
    let f := ofText path content loaded? limit
    let c := f.chunkOf ⟨span, kind, name, nodeKind⟩
    (1 ≤ c.lineStart ∧ c.lineStart ≤ c.lineEnd ∧ c.lineEnd ≤ f.lineCount) ∧
    c.content = f.slice span ∧ c.content = f.slice ⟨c.lineStart - 1, c.lineEnd - 1⟩ ∧
    c.id = ChunkId.ofParts path kind name (c.lineStart - 1) ∧
    (span.start ≤ span.stop → span.stop < f.lineCount →
      c.lineStart = span.start + 1 ∧ c.lineEnd = span.stop + 1) ∧
    ∀ w : WordSpan, w.span = span → content.utf8ByteSize < 2 ^ 63 →
      f.sliceOnWords? w = some (f.slice span) ∧
      f.chunkOnWords? w kind name nodeKind = some c := by
  intro f c
  have hpos : 0 < f.lineCount := lineCount_ofText_pos path content loaded? limit
  have hle := span.clamp_start_le f.lineCount
  have hlt := span.clamp_stop_lt hpos
  have hstart : c.lineStart = (span.clamp f.lineCount).start + 1 := rfl
  have hend : c.lineEnd = (span.clamp f.lineCount).stop + 1 := rfl
  have hcontent : c.content = f.slice (span.clamp f.lineCount) := rfl
  refine ⟨⟨by omega, by omega, by omega⟩, ?_, ?_, rfl, ?_, ?_⟩
  · rw [hcontent, slice_clamp]
  · rw [hcontent, hstart, hend, Nat.add_sub_cancel, Nat.add_sub_cancel]
  · intro hinside hlast
    rw [hstart, hend, LineSpan.clamp_of_lt hinside hlast]
    exact ⟨rfl, rfl⟩
  · rintro w rfl hfits
    have hsize : f.lineCount < UInt64.size := by
      have := lineCount_ofText_le path content loaded? limit
      show (ofText path content loaded? limit).lineCount < 2 ^ 64
      omega
    exact ⟨sliceOnWords?_eq hpos hsize w, chunkOnWords?_eq hpos hsize w kind name nodeKind⟩

/-- A span from the last word to line zero of a file with three lines comes to its first line, and
one that has all lines is kept. -/
theorem chunkOf_clamps_backwards :
    let f := ofText "a.go" "a\r\nb\n" none 50
    let w : WordSpan := ⟨18446744073709551615, 0⟩
    (w.span = ⟨18446744073709551615, 0⟩ ∧ "a\r\nb\n".utf8ByteSize < 2 ^ 63 ∧
      f.sliceOnWords? w = some (f.slice ⟨18446744073709551615, 0⟩) ∧
      f.chunkOnWords? w .function none "f"
        = some (f.chunkOf ⟨⟨18446744073709551615, 0⟩, .function, none, "f"⟩)) ∧
    0 ≤ 2 ∧ 2 < f.lineCount ∧ (f.chunkOf ⟨⟨0, 2⟩, .function, none, "f"⟩).lineStart = 1 ∧
      (f.chunkOf ⟨⟨0, 2⟩, .function, none, "f"⟩).lineEnd = 3 := by
  intro f w
  have hspan : w.span = ⟨18446744073709551615, 0⟩ := by decide
  have hsize : "a\r\nb\n".utf8ByteSize < 2 ^ 63 := by decide
  have hlast : 2 < f.lineCount := by decide
  have hwords := (chunkOf_clamps "a.go" "a\r\nb\n" none 50 ⟨18446744073709551615, 0⟩ .function none
    "f").2.2.2.2.2 w hspan hsize
  have hinside := (chunkOf_clamps "a.go" "a\r\nb\n" none 50 ⟨0, 2⟩ .function none
    "f").2.2.2.2.1 (Nat.zero_le 2) hlast
  exact ⟨⟨hspan, hsize, hwords⟩, Nat.zero_le 2, hlast, hinside⟩

end SourceFile

end SourceChunks
