import SourceChunks.Proofs.Chunk.LineSpans
import Mathlib.Data.List.Forall2

/-!
# Units or the whole file

A file is cut in one of two ways.  Either extraction finds units, and there is one chunk for each of
them, in their order; or it finds nothing, for one of three reasons (`Extraction.FindsNothing`), and
there is one chunk for the whole file.  The two kinds of chunks differ in what their metadata says
(`StructuralUnit.IsCutAs`, `Chunk.CoversFile`) and never stand side by side.  No query can ask for a
whole file, whatever names it captures nodes under.
-/

namespace SourceChunks

/-! ### The text of some lines -/

/-- The first lines of a text stand at its head. -/
theorem exists_joinLines_append (ls ms : List String) :
    ∃ after, joinLines (ls ++ ms) = joinLines ls ++ after := by
  by_cases hls : ls = []
  · exact ⟨joinLines ms, by simp [hls, joinLines]⟩
  · by_cases hms : ms = []
    · exact ⟨"", by simp [hms]⟩
    · refine ⟨"\n" ++ joinLines ms, ?_⟩
      rw [joinLines_append hls hms, String.append_assoc]

theorem exists_append_joinLines (ls ms : List String) :
    ∃ before, joinLines (ls ++ ms) = before ++ joinLines ms := by
  by_cases hms : ms = []
  · exact ⟨joinLines ls, by simp [hms, joinLines]⟩
  · by_cases hls : ls = []
    · exact ⟨"", by simp [hls]⟩
    · refine ⟨joinLines ls ++ "\n", ?_⟩
      rw [joinLines_append hls hms]

namespace SourceFile

variable {f : SourceFile}

/-- **The text of a span stands in the text of the file**, also if the span lies outside. -/
theorem exists_around_slice (hlines : f.lines = linesOf f.content) (s : LineSpan) :
    ∃ before after, f.content = before ++ f.slice s ++ after := by
  -- the lines before the span, those of the span, and the lines behind it
  have hparts : f.lines = f.lines.take (s.clamp f.lineCount).start ++
      (f.linesIn (s.clamp f.lineCount) ++ (f.lines.drop (s.clamp f.lineCount).start).drop
        ((s.clamp f.lineCount).stop + 1 - (s.clamp f.lineCount).start)) := by
    rw [linesIn, List.take_append_drop, List.take_append_drop]
  have hcontent : f.content = joinLines f.lines := by
    rw [hlines, joinLines_linesOf]
  obtain ⟨before, hbefore⟩ := exists_append_joinLines (f.lines.take (s.clamp f.lineCount).start)
    (f.linesIn (s.clamp f.lineCount) ++ (f.lines.drop (s.clamp f.lineCount).start).drop
      ((s.clamp f.lineCount).stop + 1 - (s.clamp f.lineCount).start))
  obtain ⟨after, hafter⟩ := exists_joinLines_append (f.linesIn (s.clamp f.lineCount))
    ((f.lines.drop (s.clamp f.lineCount).start).drop
      ((s.clamp f.lineCount).stop + 1 - (s.clamp f.lineCount).start))
  refine ⟨before, after, ?_⟩
  rw [hcontent, hparts, hbefore, hafter, String.append_assoc]
  rfl

theorem utf8ByteSize_slice_le (hlines : f.lines = linesOf f.content) (s : LineSpan) :
    (f.slice s).utf8ByteSize ≤ f.content.utf8ByteSize := by
  obtain ⟨before, after, hcontent⟩ := exists_around_slice hlines s
  have hsize := congrArg String.utf8ByteSize hcontent
  rw [String.utf8ByteSize_append, String.utf8ByteSize_append] at hsize
  omega

end SourceFile

/-! ### What extraction finds -/

namespace Registry.Entry

/-- **The units of a text** in a language, query by query. -/
def unitsIn (e : Registry.Entry) (content : String) : List StructuralUnit :=
  e.queries.flatMap
    (Extraction.unitsOfQuery content.toList (e.row.language.parse content.toList))

/-- Does a part of the text fit no rule of the language? -/
def isBrokenIn (e : Registry.Entry) (content : String) : Bool :=
  (e.row.language.parse content.toList).hasError

end Registry.Entry

namespace Extraction

variable {config : ChunkerConfig} {content : String} {loaded? : Option Registry.Entry}

/-- **The reasons to find nothing in a text**: no language claims it, the settings are strict and a
part of it fits no rule, or no query finds a unit. -/
inductive FindsNothing (config : ChunkerConfig) (content : String) : Option Registry.Entry → Prop
  | unsupported : FindsNothing config content none
  | broken (e : Registry.Entry) (strict : config.fallbackOnSyntaxError = true)
      (hbroken : e.isBrokenIn content = true) : FindsNothing config content (some e)
  | empty (e : Registry.Entry) (hunits : e.unitsIn content = []) :
      FindsNothing config content (some e)

theorem ofUnits_eq_unmatched_iff {units : List StructuralUnit} :
    ofUnits units = .unmatched ↔ units = [] := by
  cases units with
  | nil => exact ⟨fun _ => rfl, fun _ => rfl⟩
  | cons u us => exact ⟨nofun, nofun⟩

/-- A text whose language is known: units, unless the settings forbid them. -/
theorem ofText_some (config : ChunkerConfig) (e : Registry.Entry) (content : String) :
    ofText config (some e) content =
      if config.fallbackOnSyntaxError = true ∧ e.isBrokenIn content = true then .unmatched
      else ofUnits (e.unitsIn content) := by
  rw [ofText, Option.map_some, run]
  split_ifs with hbool hprop hprop
  · rfl
  · exact absurd (Bool.and_eq_true_iff.mp hbool) hprop
  · exact absurd (Bool.and_eq_true_iff.mpr hprop) hbool
  · rfl

/-- **Extraction comes back empty-handed for these reasons only.** -/
theorem ofText_eq_unmatched_iff :
    ofText config loaded? content = .unmatched ↔ FindsNothing config content loaded? := by
  cases loaded? with
  | none => exact ⟨fun _ => .unsupported, fun _ => rfl⟩
  | some e =>
    rw [ofText_some]
    split_ifs with hbroken
    · exact ⟨fun _ => .broken e hbroken.1 hbroken.2, fun _ => rfl⟩
    · rw [ofUnits_eq_unmatched_iff]
      constructor
      · intro hunits
        exact .empty e hunits
      · intro h
        cases h with
        | broken _ strict hbroken' => exact absurd ⟨strict, hbroken'⟩ hbroken
        | empty _ hunits => exact hunits

/-- Units that were found are all the units of the text. -/
theorem exists_of_ofText_eq_matched {units : List StructuralUnit}
    (h : ofText config loaded? content = .matched units) :
    ∃ e, loaded? = some e ∧ e.unitsIn content = units := by
  cases loaded? with
  | none => cases h
  | some e =>
    rw [ofText_some] at h
    split_ifs at h
    refine ⟨e, rfl, ?_⟩
    rcases hunits : e.unitsIn content with _ | ⟨u, us⟩
    · rw [hunits] at h
      cases h
    · rw [hunits] at h
      exact Extraction.matched.inj h

end Extraction

/-! ### The two kinds of chunks -/

/-- **A chunk that a unit is cut as**: it has the kind, the name and the grammar's word of the unit,
and says how many bytes of the file it holds. -/
structure StructuralUnit.IsCutAs (u : StructuralUnit) (c : Chunk) : Prop where
  kind_eq : c.kind = u.kind
  kind_ne : c.kind ≠ .moduleFile
  name_eq : c.name = u.name
  nodeType_eq : c.metadata.nodeType = some u.nodeKind
  chunkSize_eq : c.metadata.chunkSize = some c.content.utf8ByteSize
  size_le : c.content.utf8ByteSize ≤ c.metadata.fileSize
  lineCount_eq : c.metadata.lineCount = none

/-- **A chunk for a whole file** says how many lines the file has, and nothing of a unit. -/
structure Chunk.CoversFile (c : Chunk) : Prop where
  kind_eq : c.kind = .moduleFile
  lineCount_eq : c.metadata.lineCount = some c.lineEnd
  chunkSize_eq : c.metadata.chunkSize = none
  nodeType_eq : c.metadata.nodeType = none

/-- **What all chunks of a file share.** -/
structure Chunk.BelongsTo (c : Chunk) (f : SourceFile) : Prop where
  filepath_eq : c.filepath = f.path
  language_eq : c.language = f.language
  imports_eq : c.metadata.imports = f.imports
  fileSize_eq : c.metadata.fileSize = f.content.utf8ByteSize

namespace SourceFile

variable {f : SourceFile}

theorem isCutAs_chunkOf (hlines : f.lines = linesOf f.content) {u : StructuralUnit}
    (hkind : u.kind ≠ .moduleFile) : u.IsCutAs (f.chunkOf u) :=
  ⟨rfl, hkind, rfl, rfl, rfl, utf8ByteSize_slice_le hlines _, rfl⟩

theorem coversFile_wholeChunk (f : SourceFile) : f.wholeChunk.CoversFile := ⟨rfl, rfl, rfl, rfl⟩

theorem forall₂_isCutAs (hlines : f.lines = linesOf f.content) {units : List StructuralUnit}
    (hkinds : ∀ u ∈ units, u.kind ≠ .moduleFile) :
    List.Forall₂ StructuralUnit.IsCutAs units (f.chunks (.matched units)) := by
  show List.Forall₂ StructuralUnit.IsCutAs units (units.map f.chunkOf)
  rw [List.forall₂_map_right_iff, List.forall₂_same]
  intro u hu
  exact isCutAs_chunkOf hlines (hkinds u hu)

theorem belongsTo_of_mem_chunks {found : Extraction} {c : Chunk} (hc : c ∈ f.chunks found) :
    c.BelongsTo f := by
  cases found with
  | matched units =>
    obtain ⟨u, -, rfl⟩ := List.mem_map.mp hc
    exact ⟨rfl, rfl, rfl, rfl⟩
  | unmatched =>
    obtain rfl := List.mem_singleton.mp hc
    exact ⟨rfl, rfl, rfl, rfl⟩

end SourceFile

namespace Chunker

/-- **A file is cut into its units or not at all.**  With any registry, whatever its queries
capture, and with any settings, path and text, either the language of the path finds units and there
is one chunk for each of them, in order and none for the whole file; or there is nothing to find,
for a reason that is known, and there is one chunk for the whole file.  A chunk for the whole file
tells that extraction found nothing.  All chunks carry the path as given, the language, the import
lines and the size of the text. -/
theorem chunkFile_shape (r : Registry) (config : ChunkerConfig) (path content : String) :
    let loaded? := r.resolve? (Path.ofString path)
    let file := SourceFile.ofText path content loaded? config.importScanLines
    let chunks := chunkFile r config path content
    ((∃ e, loaded? = some e ∧
        Extraction.ofText config loaded? content = .matched (e.unitsIn content) ∧
        chunks ≠ [] ∧ List.Forall₂ StructuralUnit.IsCutAs (e.unitsIn content) chunks) ∨
      (Extraction.ofText config loaded? content = .unmatched ∧
        ∃ c, chunks = [c] ∧ c.CoversFile)) ∧
    ((∃ c ∈ chunks, c.kind = .moduleFile) ↔ Extraction.FindsNothing config content loaded?) ∧
    (Extraction.ofText config loaded? content = .unmatched ↔
      Extraction.FindsNothing config content loaded?) ∧
    (∀ c ∈ chunks, c.BelongsTo file) ∧ file.path = path ∧ file.content = content := by
  intro loaded? file chunks
  have hchunks : chunks = file.chunks (.ofText config loaded? content) := rfl
  refine ⟨?_, ?_, Extraction.ofText_eq_unmatched_iff, ?_, rfl, rfl⟩
  · cases hfound : Extraction.ofText config loaded? content with
    | matched units =>
      rw [hfound] at hchunks
      obtain ⟨e, hloaded, rfl⟩ := Extraction.exists_of_ofText_eq_matched hfound
      have hkinds := (Extraction.matched_units hfound).2
      refine Or.inl ⟨e, hloaded, rfl, chunkFile_ne_nil r config path content, ?_⟩
      rw [hchunks]
      exact SourceFile.forall₂_isCutAs rfl hkinds
    | unmatched =>
      rw [hfound] at hchunks
      exact Or.inr ⟨rfl, file.wholeChunk, hchunks, file.coversFile_wholeChunk⟩
  · rw [← Extraction.ofText_eq_unmatched_iff]
    cases hfound : Extraction.ofText config loaded? content with
    | matched units =>
      rw [hfound] at hchunks
      refine ⟨?_, nofun⟩
      rintro ⟨c, hc, hkind⟩
      rw [hchunks] at hc
      obtain ⟨u, hu, rfl⟩ := List.mem_map.mp hc
      exact absurd hkind ((Extraction.matched_units hfound).2 u hu)
    | unmatched =>
      rw [hfound] at hchunks
      refine ⟨fun _ => rfl, fun _ => ⟨file.wholeChunk, ?_, rfl⟩⟩
      rw [hchunks]
      exact List.mem_singleton_self _
  · intro c hc
    rw [hchunks] at hc
    exact SourceFile.belongsTo_of_mem_chunks hc

/-- A capture `@module_file` asks for nothing, so a file in which only such captures
match is not cut. -/
example : ChunkKind.ofCapture? "module_file" = none := by decide

end Chunker

end SourceChunks
