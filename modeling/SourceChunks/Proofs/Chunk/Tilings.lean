import SourceChunks.Proofs.Chunk.Clamping
import SourceChunks.Proofs.Chunk.Shapes

/-!
# Slices tile the file

Spans share out a file if none of them is empty and their lines, one span after the other, are all
lines of the file (`LineSpan.SharesOut`).  The texts of such spans, joined, are the text of the file
(`joinLines_slices`): the lines of the spans are the lines of the file (`flatMap_linesIn`), and
lines may be joined in groups (`joinLines_map_joinLines`).  Joining costs one byte between two
neighbours (`utf8ByteSize_joinLines`), so the sizes add up as well.
-/

namespace SourceChunks

/-! ### Places of a list -/

/-- Looking up some places in a row takes that part of the list. -/
theorem filterMap_range'_getElem? {α : Type} (as : List α) (first n : Nat) :
    (List.range' first n).filterMap (as[·]?) = (as.drop first).take n := by
  induction n generalizing first with
  | zero => simp
  | succ n ih =>
    rw [List.range'_succ]
    by_cases h : first < as.length
    · have hhead : as[first]? = some as[first] := List.getElem?_eq_getElem h
      rw [List.filterMap_cons, hhead, ih, List.drop_eq_getElem_cons h, List.take_succ_cons]
    · -- behind the end there is nothing to find, nor anywhere further
      have hhead : as[first]? = none := List.getElem?_eq_none (by omega)
      rw [List.filterMap_cons, hhead, ih, List.drop_of_length_le (by omega),
        List.drop_of_length_le (by omega)]
      simp

theorem filterMap_range_getElem? {α : Type} (as : List α) :
    (List.range as.length).filterMap (as[·]?) = as := by
  rw [List.range_eq_range', filterMap_range'_getElem?, List.drop_zero, List.take_length]

/-! ### Joining in groups -/

/-- **Lines may be joined in groups first**, as long as no group is empty. -/
theorem joinLines_map_joinLines {groups : List (List String)} (h : ∀ ls ∈ groups, ls ≠ []) :
    joinLines (groups.map joinLines) = joinLines groups.flatten := by
  induction groups with
  | nil => rfl
  | cons ls groups ih =>
    rw [List.forall_mem_cons] at h
    have htail := ih h.2
    rcases groups with _ | ⟨ms, groups⟩
    · simp [joinLines]
    · have hrest : (ms :: groups).flatten ≠ [] := by
        rw [List.flatten_cons]
        exact List.append_ne_nil_of_left_ne_nil (h.2 ms List.mem_cons_self) _
      have hmapped : (ms :: groups).map joinLines ≠ [] := List.cons_ne_nil _ _
      rw [List.map_cons, List.flatten_cons, joinLines_cons hmapped, htail,
        joinLines_append h.1 hrest]

/-- **Joining puts one byte between two neighbours.** -/
theorem utf8ByteSize_joinLines {ls : List String} (h : ls ≠ []) :
    (joinLines ls).utf8ByteSize = (ls.map String.utf8ByteSize).sum + (ls.length - 1) := by
  induction ls with
  | nil => exact absurd rfl h
  | cons l ls ih =>
    by_cases hls : ls = []
    · simp [hls, joinLines]
    · have htail := ih hls
      have hpos : 0 < ls.length := List.length_pos_of_ne_nil hls
      have hfeed : "\n".utf8ByteSize = 1 := by decide
      rw [joinLines_cons hls, String.utf8ByteSize_append, String.utf8ByteSize_append, hfeed, htail,
        List.map_cons, List.sum_cons, List.length_cons]
      omega

/-! ### Spans that share out a file -/

namespace LineSpan

/-- The lines of a span, first one first. -/
def places (s : LineSpan) : List Nat := List.range' s.start (s.stop + 1 - s.start)

/-- **Spans that share out a file of `count` lines.**  No span is empty, and their lines, one span
after the other, are the lines of the file. -/
structure SharesOut (spans : List LineSpan) (count : Nat) : Prop where
  start_le_stop : ∀ s ∈ spans, s.start ≤ s.stop
  places_eq : spans.flatMap places = List.range count

instance (spans : List LineSpan) (count : Nat) : Decidable (SharesOut spans count) :=
  decidable_of_iff ((∀ s ∈ spans, s.start ≤ s.stop) ∧ spans.flatMap places = List.range count)
    ⟨fun h => ⟨h.1, h.2⟩, fun h => ⟨h.1, h.2⟩⟩

variable {spans : List LineSpan} {count : Nat}

theorem mem_places {s : LineSpan} {i : Nat} : i ∈ s.places ↔ s.start ≤ i ∧ i ≤ s.stop := by
  rw [places, List.mem_range'_1]
  omega

/-- Spans that share out a file lie in it. -/
theorem SharesOut.stop_lt (h : SharesOut spans count) {s : LineSpan} (hs : s ∈ spans) :
    s.stop < count := by
  have hmem : s.stop ∈ spans.flatMap places :=
    List.mem_flatMap.mpr ⟨s, hs, mem_places.mpr ⟨h.start_le_stop s hs, Nat.le_refl _⟩⟩
  rw [h.places_eq] at hmem
  exact List.mem_range.mp hmem

theorem SharesOut.ne_nil (h : SharesOut spans count) (hpos : 0 < count) : spans ≠ [] := by
  rintro rfl
  have hlength := congrArg List.length h.places_eq
  rw [List.flatMap_nil, List.length_nil, List.length_range] at hlength
  omega

/-- One span may have all lines. -/
theorem sharesOut_singleton (hpos : 0 < count) : SharesOut [⟨0, count - 1⟩] count where
  start_le_stop := List.forall_mem_singleton.mpr (Nat.zero_le _)
  places_eq := by
    rw [List.flatMap_singleton, places, List.range_eq_range']
    show List.range' 0 (count - 1 + 1 - 0) = _
    congr 1
    omega

end LineSpan

namespace SourceFile

open LineSpan

variable {f : SourceFile} {spans : List LineSpan}

theorem linesIn_eq_filterMap (f : SourceFile) (s : LineSpan) :
    f.linesIn s = s.places.filterMap (f.lines[·]?) := by
  rw [places, filterMap_range'_getElem?, linesIn]

theorem slice_of_sharesOut (h : SharesOut spans f.lineCount) {s : LineSpan} (hs : s ∈ spans) :
    f.slice s = joinLines (f.linesIn s) := by
  rw [slice, clamp_of_lt (h.start_le_stop s hs) (h.stop_lt hs)]

/-- **The lines of the spans are the lines of the file.** -/
theorem flatMap_linesIn (h : SharesOut spans f.lineCount) : spans.flatMap f.linesIn = f.lines := by
  have hlines : spans.flatMap f.linesIn = (spans.flatMap places).filterMap (f.lines[·]?) := by
    rw [List.filterMap_flatMap]
    congr 1
    funext s
    exact f.linesIn_eq_filterMap s
  rw [hlines, h.places_eq, lineCount, filterMap_range_getElem?]

/-- A span of the file has lines. -/
theorem linesIn_ne_nil (h : SharesOut spans f.lineCount) {s : LineSpan} (hs : s ∈ spans) :
    f.linesIn s ≠ [] := by
  have hle := h.start_le_stop s hs
  have hlt : s.stop < f.lines.length := h.stop_lt hs
  intro hnil
  have hlength := congrArg List.length hnil
  rw [linesIn, List.length_take, List.length_drop, List.length_nil] at hlength
  omega

/-- **The texts of the spans, joined, are the lines of the file, joined.** -/
theorem joinLines_slices (h : SharesOut spans f.lineCount) :
    joinLines (spans.map f.slice) = joinLines f.lines := by
  have hgroups : spans.map f.slice = (spans.map f.linesIn).map joinLines := by
    rw [List.map_map]
    exact List.map_congr_left fun s hs => slice_of_sharesOut h hs
  have hne : ∀ ls ∈ spans.map f.linesIn, ls ≠ [] :=
    List.forall_mem_map.mpr fun s hs => linesIn_ne_nil h hs
  calc joinLines (spans.map f.slice)
      = joinLines ((spans.map f.linesIn).map joinLines) := by rw [hgroups]
    _ = joinLines (spans.map f.linesIn).flatten := joinLines_map_joinLines hne
    _ = joinLines f.lines := by rw [← List.flatMap_def, flatMap_linesIn h]

/-- **Slices tile the file.**  However the lines of a text are shared out to spans, the texts of the
spans, joined with line feeds, are the whole text, and their sizes and one byte between two
neighbours make its size.  The chunk of the whole file has the text of the span of all lines. -/
theorem slices_tile (path content : String) (loaded? : Option Registry.Entry) (limit : Nat) :
    let f := ofText path content loaded? limit
    (∀ spans, SharesOut spans f.lineCount →
      joinLines (spans.map f.slice) = content ∧
      (spans.map fun s => (f.slice s).utf8ByteSize).sum + (spans.length - 1)
        = content.utf8ByteSize) ∧
    SharesOut [⟨0, f.lineCount - 1⟩] f.lineCount ∧
    f.wholeChunk.content = f.slice ⟨0, f.lineCount - 1⟩ := by
  intro f
  have hpos : 0 < f.lineCount := lineCount_ofText_pos path content loaded? limit
  have hjoin : ∀ spans, SharesOut spans f.lineCount → joinLines (spans.map f.slice) = content := by
    intro spans h
    have hlines : f.lines = linesOf content := rfl
    rw [joinLines_slices h, hlines, joinLines_linesOf]
  have hfull : SharesOut [⟨0, f.lineCount - 1⟩] f.lineCount := sharesOut_singleton hpos
  refine ⟨fun spans h => ⟨hjoin spans h, ?_⟩, hfull, ?_⟩
  · have hne : spans.map f.slice ≠ [] := by
      rw [ne_eq, List.map_eq_nil_iff]
      exact h.ne_nil hpos
    have hsize := utf8ByteSize_joinLines hne
    rw [hjoin spans h, List.map_map, List.length_map] at hsize
    exact hsize.symm
  · -- one span with all lines is joined with nothing
    have hone := hjoin _ hfull
    rw [List.map_singleton, joinLines, String.intercalate_singleton] at hone
    exact hone.symm

/-- Three spans of a file with carriage returns, blank lines and a final line feed. -/
theorem slices_tile_blankLines :
    let f := ofText "x.go" "a\r\n\n\nb\n" none 50
    let spans : List LineSpan := [⟨0, 0⟩, ⟨1, 3⟩, ⟨4, 4⟩]
    SharesOut spans f.lineCount ∧ joinLines (spans.map f.slice) = "a\r\n\n\nb\n" ∧
      (spans.map fun s => (f.slice s).utf8ByteSize).sum + 2 = 7 := by
  intro f spans
  have hshares : SharesOut spans f.lineCount := by decide
  obtain ⟨hjoin, hsize⟩ := (slices_tile "x.go" "a\r\n\n\nb\n" none 50).1 spans hshares
  exact ⟨hshares, hjoin, hsize⟩

end SourceFile

end SourceChunks
