import SourceChunks.Proofs.Chunk.Shapes
import Mathlib.Data.List.DropRight

/-!
# Import lines come from the head of a file

Lines are looked at one by one: two lists one after the other give what is found in the first and
then what is found in the second, as far as the limit reaches (`importLines_append`), so more lines
or a higher limit only add to what is found (`importLines_prefix`).  What is found in a line is the
line without the blanks around it (`TrimsTo`), if it begins in one of the given ways.

All chunks of a file carry what is found in the file, and this depends on its first lines only
(`SourceFile.imports_congr`): not on what follows, and not on how the file is cut.
-/

namespace SourceChunks

/-! ### Blanks around a text -/

/-- **A line is trimmed to a text** if there is nothing but blanks around it, and
none at its ends. -/
structure TrimsTo (line text : String) : Prop where
  head : ∀ c ∈ text.toList.head?, isBlank c = false
  last : ∀ c ∈ text.toList.getLast?, isBlank c = false
  around : ∃ before after, line.toList = before ++ text.toList ++ after ∧
    (∀ c ∈ before, isBlank c = true) ∧ ∀ c ∈ after, isBlank c = true

section Trimming

variable {cs before after : List Char} {line text : String}

theorem trimChars_eq (cs : List Char) :
    trimChars cs = (cs.dropWhile isBlank).rdropWhile isBlank := rfl

theorem head?_trimChars {c : Char} (h : c ∈ (trimChars cs).head?) : isBlank c = false := by
  obtain ⟨rest, hrest⟩ := List.rdropWhile_prefix isBlank (cs.dropWhile isBlank)
  -- what is left begins as the text does without the blanks in front
  have hfirst : (cs.dropWhile isBlank).head? = some c := by
    rw [← hrest, List.head?_append, ← trimChars_eq, Option.mem_def.mp h]
    rfl
  have hnot := List.head?_dropWhile_not isBlank cs
  rw [hfirst] at hnot
  exact hnot

theorem getLast?_trimChars {c : Char} (h : c ∈ (trimChars cs).getLast?) : isBlank c = false := by
  obtain ⟨hne, rfl⟩ := List.mem_getLast?_eq_getLast h
  exact eq_false_of_ne_true (List.rdropWhile_last_not isBlank (cs.dropWhile isBlank) hne)

/-- **Trimming takes blanks only**, before and behind what is left. -/
theorem exists_around_trimChars (cs : List Char) :
    ∃ before after, cs = before ++ trimChars cs ++ after ∧
      (∀ c ∈ before, isBlank c = true) ∧ ∀ c ∈ after, isBlank c = true := by
  refine ⟨cs.takeWhile isBlank, (cs.dropWhile isBlank).rtakeWhile isBlank, ?_, ?_, ?_⟩
  · rw [trimChars_eq, List.append_assoc, List.rdropWhile_append_rtakeWhile,
      List.takeWhile_append_dropWhile]
  · exact fun c hc => List.mem_takeWhile_imp hc
  · exact fun c hc => List.mem_rtakeWhile_imp hc

theorem trimChars_append (hbefore : ∀ c ∈ before, isBlank c = true)
    (hafter : ∀ c ∈ after, isBlank c = true) :
    trimChars (before ++ cs ++ after) = trimChars cs := by
  have hbehind : ∀ ds : List Char, (ds ++ after).rdropWhile isBlank = ds.rdropWhile isBlank := by
    intro ds
    have hreverse : ∀ c ∈ after.reverse, isBlank c = true :=
      fun c hc => hafter c (List.mem_reverse.mp hc)
    rw [List.rdropWhile, List.reverse_append, List.dropWhile_append_of_pos hreverse,
      ← List.rdropWhile]
  rw [trimChars_eq, trimChars_eq, List.append_assoc, List.dropWhile_append_of_pos hbefore,
    List.dropWhile_append]
  split_ifs with hempty
  · -- the text is blank as a whole, and so is what follows
    rw [List.isEmpty_iff.mp hempty, List.dropWhile_eq_nil_iff.mpr hafter]
  · exact hbehind _

theorem trimChars_of_ends (hhead : ∀ c ∈ cs.head?, isBlank c = false)
    (hlast : ∀ c ∈ cs.getLast?, isBlank c = false) : trimChars cs = cs := by
  have hdrop : cs.dropWhile isBlank = cs := by
    cases cs with
    | nil => rfl
    | cons c rest => exact List.dropWhile_cons_of_neg (ne_true_of_eq_false (hhead c rfl))
  rw [trimChars_eq, hdrop, List.rdropWhile_eq_self_iff]
  intro hne
  exact ne_true_of_eq_false (hlast _ (List.getLast?_eq_some_getLast hne))

/-- **There is one text that a line is trimmed to.** -/
theorem trimsTo_iff : TrimsTo line text ↔ trim line = text := by
  constructor
  · rintro ⟨hhead, hlast, before, after, hline, hbefore, hafter⟩
    rw [trim, hline, trimChars_append hbefore hafter, trimChars_of_ends hhead hlast,
      String.ofList_toList]
  · rintro rfl
    have hchars : (trim line).toList = trimChars line.toList := String.toList_ofList
    refine ⟨fun c hc => ?_, fun c hc => ?_, ?_⟩
    · rw [hchars] at hc
      exact head?_trimChars hc
    · rw [hchars] at hc
      exact getLast?_trimChars hc
    · rw [hchars]
      exact exists_around_trimChars line.toList

end Trimming

/-! ### The lines of a list -/

theorem beginsWith_iff {s beginning : String} :
    beginsWith s beginning = true ↔ beginning.toList <+: s.toList := List.isPrefixOf_iff_prefix

section Lines

variable (beginnings : List String) (limit : Nat) (ls ms : List String)

/-- **Import lines are found line by line.** -/
theorem importLines_append : importLines beginnings limit (ls ++ ms)
    = importLines beginnings limit ls ++ importLines beginnings (limit - ls.length) ms := by
  rw [importLines, List.take_append, List.map_append, List.filter_append]
  rfl

/-- **A higher limit only adds import lines**, at the end. -/
theorem importLines_prefix {m n : Nat} (h : m ≤ n) :
    importLines beginnings m ls <+: importLines beginnings n ls :=
  ((List.take_prefix_take_left h).map trim).filter _

theorem importLines_sublist :
    (importLines beginnings limit ls).Sublist ((ls.take limit).map trim) := List.filter_sublist

theorem mem_importLines_iff {text : String} : text ∈ importLines beginnings limit ls ↔
    (∃ beginning ∈ beginnings, beginning.toList <+: text.toList) ∧
      ∃ line ∈ ls.take limit, TrimsTo line text := by
  rw [importLines, List.mem_filter, List.mem_map, List.any_eq_true, and_comm]
  simp only [beginsWith_iff, trimsTo_iff]

end Lines

/-! ### The chunks of a file -/

/-- The import lines of a file are those of its first lines. -/
theorem SourceFile.imports_congr {path content content' : String}
    {loaded? : Option Registry.Entry} {limit : Nat}
    (h : (linesOf content).take limit = (linesOf content').take limit) :
    (ofText path content loaded? limit).imports = (ofText path content' loaded? limit).imports := by
  show (loaded?.map fun e => importLines e.row.importPrefixes limit (linesOf content)).getD [] =
    (loaded?.map fun e => importLines e.row.importPrefixes limit (linesOf content')).getD []
  simp only [importLines, h]

namespace Chunker

/-- **All chunks of a file carry its import lines**, units and whole files alike. -/
theorem imports_of_mem_chunkFile {r : Registry} {config : ChunkerConfig} {path content : String}
    {c : Chunk} (hc : c ∈ chunkFile r config path content) :
    c.metadata.imports = (SourceFile.ofText path content (r.resolve? (Path.ofString path))
      config.importScanLines).imports := (SourceFile.belongsTo_of_mem_chunks hc).imports_eq

/-- **Import lines come from the head of a file only.**  A lower limit finds a beginning of what a
higher limit finds; lines after other lines are looked at with what is left of the limit; what is
found are the first lines that, trimmed, begin in one of the given ways, each of them once and in
order.  The chunks of a file carry the import lines of its language.  So two texts whose first lines
are the same, as many as the settings say, give chunks with the same import lines, whatever follows
these lines and whether a text is cut into units or not. -/
theorem imports_from_head :
    (∀ (beginnings ls : List String) (m n : Nat), m ≤ n →
      importLines beginnings m ls <+: importLines beginnings n ls) ∧
    (∀ (beginnings ls ms : List String) (n : Nat), importLines beginnings n (ls ++ ms)
      = importLines beginnings n ls ++ importLines beginnings (n - ls.length) ms) ∧
    (∀ (beginnings ls : List String) (n : Nat) (text : String),
      text ∈ importLines beginnings n ls ↔
        (∃ beginning ∈ beginnings, beginning.toList <+: text.toList) ∧
          ∃ line ∈ ls.take n, TrimsTo line text) ∧
    (∀ (beginnings ls : List String) (n : Nat),
      (importLines beginnings n ls).Sublist ((ls.take n).map trim)) ∧
    (∀ (r : Registry) (config : ChunkerConfig) (path content : String) (e : Registry.Entry),
      r.resolve? (Path.ofString path) = some e → ∀ c ∈ chunkFile r config path content,
        c.metadata.imports
          = importLines e.row.importPrefixes config.importScanLines (linesOf content)) ∧
    (∀ (r : Registry) (config : ChunkerConfig) (path content content' : String),
      (linesOf content).take config.importScanLines
          = (linesOf content').take config.importScanLines →
        chunkFile r config path content ≠ [] ∧ chunkFile r config path content' ≠ [] ∧
        ∀ c ∈ chunkFile r config path content, ∀ c' ∈ chunkFile r config path content',
          c.metadata.imports = c'.metadata.imports) := by
  refine ⟨fun beginnings ls m n h => importLines_prefix beginnings ls h,
    fun beginnings ls ms n => importLines_append beginnings n ls ms,
    fun beginnings ls n text => mem_importLines_iff beginnings n ls,
    fun beginnings ls n => importLines_sublist beginnings n ls, ?_, ?_⟩
  · intro r config path content e he c hc
    rw [imports_of_mem_chunkFile hc, he]
    rfl
  · intro r config path content content' hhead
    refine ⟨chunkFile_ne_nil r config path content, chunkFile_ne_nil r config path content', ?_⟩
    intro c hc c' hc'
    rw [imports_of_mem_chunkFile hc, imports_of_mem_chunkFile hc', SourceFile.imports_congr hhead]

/-- Settings that look at two lines. -/
def twoLines : ChunkerConfig := { importScanLines := 2 }

/-- A text with an import line behind the first two lines, and no unit. -/
def lateImport : String := "import os \r\nx\nimport a\n"

/-- A text with a unit behind the first two lines, which are those of `lateImport`. -/
def lateUnit : String := "import os \r\nx\ndef f(): pass\n"

/-- One text is cut into units and the other one is not, and all chunks have the
same import line. -/
theorem imports_from_head_lateImport :
    2 ≤ 3 ∧ importLines ["import "] 2 (linesOf lateImport)
      <+: importLines ["import "] 3 (linesOf lateImport) ∧
    "import os" ∈ importLines ["import "] 2 (linesOf lateImport) ∧
    (∃ line ∈ (linesOf lateImport).take 2, TrimsTo line "import os") ∧
    (linesOf lateImport).take 2 = (linesOf lateUnit).take 2 ∧
    ∃ e c c', Registry.builtin.resolve? (Path.ofString "late.py") = some e ∧
      c ∈ chunkFile .builtin twoLines "late.py" lateImport ∧ c.kind = .moduleFile ∧
      c' ∈ chunkFile .builtin twoLines "late.py" lateUnit ∧ c'.kind = .function ∧
      c.metadata.imports = importLines e.row.importPrefixes 2 (linesOf lateImport) ∧
      c.metadata.imports = c'.metadata.imports := by
  obtain ⟨hmore, -, hmem, -, hchunks, hhead⟩ := imports_from_head
  have hos : "import os" ∈ importLines ["import "] 2 (linesOf lateImport) := by decide +kernel
  have hsame : (linesOf lateImport).take 2 = (linesOf lateUnit).take 2 := by decide +kernel
  have hkinds : (chunkFile .builtin twoLines "late.py" lateImport).map (·.kind) = [.moduleFile] ∧
      (chunkFile .builtin twoLines "late.py" lateUnit).map (·.kind) = [.function] := by
    decide +kernel
  obtain ⟨e, he⟩ := Option.isSome_iff_exists.mp
    (show (Registry.builtin.resolve? (Path.ofString "late.py")).isSome by decide +kernel)
  obtain ⟨c, hc, hkind⟩ := List.mem_map.mp (hkinds.1 ▸ List.mem_singleton_self ChunkKind.moduleFile)
  obtain ⟨c', hc', hkind'⟩ :=
    List.mem_map.mp (hkinds.2 ▸ List.mem_singleton_self ChunkKind.function)
  exact ⟨by decide, hmore _ _ 2 3 (by decide), hos, ((hmem _ _ 2 _).mp hos).2, hsame, e, c, c', he,
    hc, hkind, hc', hkind', hchunks _ twoLines _ _ e he c hc,
    (hhead _ twoLines _ _ _ hsame).2.2 c hc c' hc'⟩

end Chunker

end SourceChunks
