import SourceChunks.Proofs.Scan.Pulling
import SourceChunks.Proofs.Text.Decoding

/-!
# Line spans refer to the bytes on disk

A file is decoded, then cut into lines, and a chunk is put together from some of the lines.
`Chunk.Cites` is what a reader of the chunk may rely on: the lines `lineStart` to `lineEnd` of the
file's bytes, decoded one by one and joined, are the content of the chunk.  Decoding goes line by
line (`Bytes.linesOf_decode`), so a file that was decoded first can stand for its bytes
(`SourceFile.Reads`), and both ways of making a chunk keep to them, whatever span a unit has.

Files may change while a scan goes on.  Every chunk still cites the bytes that its file had at one
of the pulls (`ChunkStream.Traced`).
-/

namespace SourceChunks

namespace Bytes

/-- The lines `first` to `last`, counted from one. -/
def linesBetween (b : Bytes) (first last : Nat) : List Bytes :=
  (b.lines.drop (first - 1)).take (last + 1 - first)

theorem length_lines_pos (b : Bytes) : 0 < b.lines.length := by
  rw [length_lines]
  omega

end Bytes

/-- **A chunk cites some bytes**: its span lies inside them, and its content is what the lines of
its span decode to.  A whole file has all lines and the decoding of all bytes. -/
structure Chunk.Cites (c : Chunk) (b : Bytes) : Prop where
  one_le_lineStart : 1 ≤ c.lineStart
  lineStart_le_lineEnd : c.lineStart ≤ c.lineEnd
  lineEnd_le : c.lineEnd ≤ b.lines.length
  content_eq : c.content = joinLines ((b.linesBetween c.lineStart c.lineEnd).map Bytes.decode)
  whole : c.kind = .moduleFile →
    c.lineStart = 1 ∧ c.lineEnd = b.lines.length ∧ c.content = Bytes.decode b

/-! ### Spans inside a file -/

namespace LineSpan

theorem clamp_start_le (s : LineSpan) (count : Nat) :
    (s.clamp count).start ≤ (s.clamp count).stop :=
  Nat.min_le_right _ _

theorem clamp_stop_lt (s : LineSpan) {count : Nat} (h : 0 < count) :
    (s.clamp count).stop < count := by
  have hle : (s.clamp count).stop ≤ count - 1 := Nat.min_le_right _ _
  omega

/-- A span that was made to fit is not changed again. -/
theorem clamp_clamp (s : LineSpan) (count : Nat) : (s.clamp count).clamp count = s.clamp count := by
  simp only [clamp, LineSpan.mk.injEq]
  omega

end LineSpan

/-! ### The two ways of making a chunk -/

namespace SourceFile

variable {f : SourceFile} {b : Bytes}

/-- **A source file stands for some bytes**: it has their decoding and, line by line, that of their
lines. -/
structure Reads (f : SourceFile) (b : Bytes) : Prop where
  content_eq : f.content = Bytes.decode b
  lines_eq : f.lines = b.lines.map Bytes.decode

/-- The text that bytes decode to stands for them. -/
theorem reads_ofText (path : String) (b : Bytes) (loaded? : Option Registry.Entry) (limit : Nat) :
    (ofText path (Bytes.decode b) loaded? limit).Reads b where
  content_eq := rfl
  lines_eq := Bytes.linesOf_decode b

theorem Reads.lineCount_eq (h : f.Reads b) : f.lineCount = b.lines.length := by
  rw [lineCount, h.lines_eq, List.length_map]

theorem Reads.linesIn_eq (h : f.Reads b) (s : LineSpan) :
    f.linesIn s = (b.linesBetween (s.start + 1) (s.stop + 1)).map Bytes.decode := by
  rw [linesIn, h.lines_eq, Bytes.linesBetween, ← List.map_drop, ← List.map_take]
  congr 2
  omega

/-- **The chunk of a unit cites the file**, whatever the span of the unit. -/
theorem Reads.cites_chunkOf (h : f.Reads b) {u : StructuralUnit} (hkind : u.kind ≠ .moduleFile) :
    (f.chunkOf u).Cites b := by
  have hpos : 0 < f.lineCount := by
    rw [h.lineCount_eq]
    exact b.length_lines_pos
  have hstart := u.span.clamp_start_le f.lineCount
  have hstop := u.span.clamp_stop_lt hpos
  rw [h.lineCount_eq] at hstart hstop
  -- the slice makes the span fit once more, which changes nothing
  have hcontent : (f.chunkOf u).content = joinLines (f.linesIn (u.span.clamp f.lineCount)) := by
    show f.slice (u.span.clamp f.lineCount) = _
    rw [slice, LineSpan.clamp_clamp]
  rw [h.linesIn_eq] at hcontent
  refine ⟨Nat.succ_pos _, ?_, ?_, hcontent, fun hwhole => absurd hwhole hkind⟩
  · show (u.span.clamp f.lineCount).start + 1 ≤ (u.span.clamp f.lineCount).stop + 1
    rw [h.lineCount_eq]
    omega
  · show (u.span.clamp f.lineCount).stop + 1 ≤ _
    rw [h.lineCount_eq]
    omega

/-- **The chunk of the whole file cites the file**: its lines joined are all of its text. -/
theorem Reads.cites_wholeChunk (h : f.Reads b) : f.wholeChunk.Cites b := by
  have hpos := b.length_lines_pos
  have hcount := h.lineCount_eq
  have hall : b.linesBetween 1 f.lineCount = b.lines := by
    rw [Bytes.linesBetween, hcount, Nat.sub_self, List.drop_zero, Nat.add_sub_cancel,
      List.take_length]
  refine ⟨Nat.le_refl 1, ?_, ?_, ?_, fun _ => ⟨rfl, hcount, h.content_eq⟩⟩
  · show 1 ≤ f.lineCount
    omega
  · show f.lineCount ≤ _
    omega
  · show f.content = joinLines ((b.linesBetween 1 f.lineCount).map Bytes.decode)
    rw [hall, h.content_eq, ← Bytes.linesOf_decode, joinLines_linesOf]

end SourceFile

/-! ### Whatever extraction finds -/

/-- **The kinds of what was found are those of query captures.**  Nothing is said of spans, names
or the order of the units. -/
def Extraction.IsCaptured : Extraction → Prop
  | .matched units => ∀ u ∈ units, ∃ capture, ChunkKind.ofCapture? capture = some u.kind
  | .unmatched => True

theorem ChunkKind.ofCapture?_ne_moduleFile (capture : String) :
    ofCapture? capture ≠ some .moduleFile := by
  unfold ofCapture?
  split
  · exact (Option.some_ne_none _).symm
  · rename_i hother
    exact hother

theorem SourceFile.Reads.cites_chunks {f : SourceFile} {b : Bytes} (h : f.Reads b)
    {found : Extraction} (hfound : found.IsCaptured) : ∀ c ∈ f.chunks found, c.Cites b := by
  intro c hc
  cases found with
  | matched units =>
    obtain ⟨u, hu, rfl⟩ := List.mem_map.mp hc
    obtain ⟨capture, hcapture⟩ := hfound u hu
    refine h.cites_chunkOf fun hwhole => ChunkKind.ofCapture?_ne_moduleFile capture ?_
    rw [hcapture, hwhole]
  | unmatched =>
    obtain rfl := List.mem_singleton.mp hc
    exact h.cites_wholeChunk

namespace Extraction

theorem isCaptured_unitsOfQuery {text : List Char} {tree : SyntaxTree} {q : Query}
    {u : StructuralUnit} (hu : u ∈ unitsOfQuery text tree q) :
    ∃ capture, ChunkKind.ofCapture? capture = some u.kind := by
  obtain ⟨captures, -, hu⟩ := List.mem_flatMap.mp hu
  obtain ⟨c, -, hunit⟩ := List.mem_filterMap.mp hu
  obtain ⟨kind, hkind, rfl⟩ := Option.map_eq_some_iff.mp hunit
  exact ⟨c.name, hkind⟩

/-- **Extraction finds captured units only.** -/
theorem isCaptured_ofAttempt (config : ChunkerConfig) (loaded? : Option Registry.Entry)
    (content : String) : (ofAttempt (loaded?.map (run config · content))).IsCaptured := by
  cases loaded? with
  | none => trivial
  | some e =>
    simp only [Option.map_some, run]
    split_ifs
    · trivial
    · rcases hunits : e.queries.flatMap (unitsOfQuery content.toList
        (e.row.language.parse content.toList)) with _ | ⟨u, units⟩
      · trivial
      · intro v hv
        rw [← hunits] at hv
        obtain ⟨q, -, hv⟩ := List.mem_flatMap.mp hv
        exact isCaptured_unitsOfQuery hv

/-- **Units that were found** are at least one, and no unit is a whole file. -/
theorem matched_units {config : ChunkerConfig} {loaded? : Option Registry.Entry}
    {content : String} {units : List StructuralUnit}
    (h : ofText config loaded? content = .matched units) :
    units ≠ [] ∧ ∀ u ∈ units, u.kind ≠ .moduleFile := by
  have hcaptured := isCaptured_ofAttempt config loaded? content
  change (ofText config loaded? content).IsCaptured at hcaptured
  rw [h] at hcaptured
  refine ⟨?_, ?_⟩
  · rintro rfl
    unfold ofText ofAttempt at h
    split at h
    · unfold ofUnits at h
      split at h
      · cases h
      · rename_i hsome
        exact hsome (Extraction.matched.inj h)
    · cases h
    · cases h
  · intro u hu hkind
    obtain ⟨capture, hcapture⟩ := hcaptured u hu
    rw [hkind] at hcapture
    exact ChunkKind.ofCapture?_ne_moduleFile capture hcapture

end Extraction

/-- **The chunks of decoded bytes cite the bytes.** -/
theorem Chunker.cites_run (r : Registry) (config : ChunkerConfig) (path : String) (b : Bytes) :
    ∀ c ∈ (Chunker.run r config path (Bytes.decode b)).chunks, c.Cites b :=
  (SourceFile.reads_ofText path b _ _).cites_chunks (Extraction.isCaptured_ofAttempt config _ _)

/-- A file always gives a chunk: units that were found are at least one. -/
theorem Chunker.chunkFile_ne_nil (r : Registry) (config : ChunkerConfig) (path content : String) :
    Chunker.chunkFile r config path content ≠ [] := by
  show (SourceFile.ofText path content _ _).chunks (.ofText config _ content) ≠ []
  cases hfound : Extraction.ofText config (r.resolve? (Path.ofString path)) content with
  | unmatched => exact List.cons_ne_nil _ _
  | matched units =>
    rw [SourceFile.chunks, ne_eq, List.map_eq_nil_iff]
    exact (Extraction.matched_units hfound).1

/-! ### Whatever happens to the files -/

/-- **Where a chunk comes from**: at one of some moments, one of some paths was eligible and had
bytes that the chunk cites. -/
def Chunk.ReadFrom (c : Chunk) (scope : ScanScope) (paths : List Path)
    (moments : List FileSystem) : Prop :=
  ∃ fs ∈ moments, ∃ p ∈ paths, ∃ b, scope.filter.isEligible fs p = true ∧ fs.read p = .ok b ∧
    c.filepath = Path.relativeTo scope.root p ∧ c.Cites b

/-- Every chunk of a file carries the path that was given. -/
theorem SourceFile.filepath_of_mem_chunks {f : SourceFile} {found : Extraction} {c : Chunk}
    (hc : c ∈ f.chunks found) : c.filepath = f.path := by
  cases found with
  | matched units =>
    obtain ⟨u, -, rfl⟩ := List.mem_map.mp hc
    rfl
  | unmatched =>
    obtain rfl := List.mem_singleton.mp hc
    rfl

/-- **The chunks of a report come from its path.** -/
theorem FileReport.readFrom_ofPath {fs : FileSystem} {scope : ScanScope} {p : Path}
    {paths : List Path} {moments : List FileSystem} (hfs : fs ∈ moments) (hp : p ∈ paths) :
    ∀ c ∈ (ofPath fs scope p).chunks, c.ReadFrom scope paths moments := by
  intro c hc
  obtain ⟨heligible, b, hread, hc⟩ := exists_of_mem_ofPath hc
  exact ⟨fs, hfs, p, hp, b, heligible, hread, SourceFile.filepath_of_mem_chunks hc,
    Chunker.cites_run _ _ _ b c hc⟩

namespace ChunkStream

/-- **Answers of pulls between which the files may change**: each pull finds them as they are at
its own moment. -/
def answersOver : List FileSystem → ChunkStream → List (Option Chunk)
  | [], _ => []
  | fs :: later, s => (s.next fs).chunk? :: answersOver later (s.next fs).stream

variable {scope : ScanScope} {paths : List Path} {moments : List FileSystem} {s : ChunkStream}

/-- **Everything in a stream can be traced back**: the paths to come are candidates, and the
pending chunks were read at one of the moments. -/
structure Traced (scope : ScanScope) (paths : List Path) (moments : List FileSystem)
    (s : ChunkStream) : Prop where
  scope_eq : s.scope = scope
  paths_subset : s.paths ⊆ paths
  pending_readFrom : ∀ c ∈ s.pending, c.ReadFrom scope paths moments

/-- Looking for pending chunks keeps a stream traced. -/
theorem Traced.refill (h : s.Traced scope paths moments) {fs : FileSystem} (hfs : fs ∈ moments) :
    (s.refill fs).1.Traced scope paths moments := by
  unfold ChunkStream.refill
  split
  · -- paths are looked at only if nothing is pending, and those behind stay candidates
    obtain ⟨n, -, hpaths, hpending, -⟩ := advance_spec fs s.scope s.stats s.paths
    refine ⟨h.scope_eq, ?_, ?_⟩
    · show (advance fs s.scope s.stats s.paths).paths ⊆ paths
      rw [hpaths]
      exact List.Subset.trans (List.drop_subset n _) h.paths_subset
    · intro c hc
      have hc : c ∈ (advance fs s.scope s.stats s.paths).pending := hc
      rw [hpending, h.scope_eq] at hc
      obtain ⟨p, hp, hc⟩ := List.mem_flatMap.mp hc
      exact FileReport.readFrom_ofPath hfs (h.paths_subset (List.take_subset n _ hp)) c hc
  · exact h

/-- **One pull keeps a stream traced**, and so is the chunk that it gives. -/
theorem Traced.next (h : s.Traced scope paths moments) {fs : FileSystem} (hfs : fs ∈ moments) :
    (s.next fs).stream.Traced scope paths moments ∧
      ∀ c, (s.next fs).chunk? = some c → c.ReadFrom scope paths moments := by
  have hrefill := h.refill hfs
  unfold ChunkStream.next
  dsimp only
  split
  · exact ⟨hrefill, fun c hc => absurd hc.symm (Option.some_ne_none c)⟩
  · rename_i c cs hpending
    have hmem := hrefill.pending_readFrom
    rw [hpending] at hmem
    refine ⟨⟨hrefill.scope_eq, hrefill.paths_subset, ?_⟩, ?_⟩
    · intro d hd
      exact hmem d (List.mem_cons_of_mem c hd)
    · intro d hd
      obtain rfl := Option.some.inj hd
      exact hmem c List.mem_cons_self

/-- **Any number of pulls give traced chunks only**, by induction on the moments of the pulls. -/
theorem Traced.answersOver (h : s.Traced scope paths moments) {later : List FileSystem}
    (hlater : later ⊆ moments) {c : Chunk} (hc : some c ∈ s.answersOver later) :
    c.ReadFrom scope paths moments := by
  induction later generalizing s with
  | nil => exact absurd hc List.not_mem_nil
  | cons fs later ih =>
    rw [List.cons_subset] at hlater
    obtain ⟨hstream, hchunk⟩ := h.next hlater.1
    rcases List.mem_cons.mp hc with hc | hc
    · exact hchunk c hc.symm
    · exact ih hstream hlater.2 hc

end ChunkStream

namespace Scanner

/-- **Line spans refer to the bytes on disk.**  A chunk that a scan hands out, at whatever pulls and
whatever happens to the files between them, comes from a candidate path and cites the bytes that
were read there.  A text has at least one chunk, and all of them cite the bytes of the text, with
any registry and settings, and also if extraction were to find other units, at other lines. -/
theorem chunks_cite_bytes :
    (∀ (s : Scanner) (fs : FileSystem) (stream : ChunkStream) (log : List LogLine)
        (moments : List FileSystem) (c : Chunk),
      s.scan fs = .ok (stream, log) → some c ∈ stream.answersOver moments →
        c.ReadFrom s.scope (s.expectedPaths fs) moments) ∧
    (∀ (r : Registry) (config : ChunkerConfig) (path content : String),
      Chunker.chunkFile r config path content ≠ [] ∧
      ∀ c ∈ Chunker.chunkFile r config path content, c.Cites (Bytes.encode content)) ∧
    (∀ (path content : String) (loaded? : Option Registry.Entry) (limit : Nat)
        (found : Extraction), found.IsCaptured →
      ∀ c ∈ (SourceFile.ofText path content loaded? limit).chunks found,
        c.Cites (Bytes.encode content)) := by
  refine ⟨?_, ?_, ?_⟩
  · intro s fs stream log moments c hscan hc
    have hstart : stream.Traced s.scope (s.expectedPaths fs) moments := by
      rw [stream_eq_of_scan hscan]
      exact ⟨rfl, List.Subset.refl _, fun d hd => absurd hd List.not_mem_nil⟩
    exact hstart.answersOver (List.Subset.refl moments) hc
  · intro r config path content
    have hrun := Chunker.cites_run r config path (Bytes.encode content)
    rw [Bytes.decode_encode] at hrun
    exact ⟨Chunker.chunkFile_ne_nil r config path content, hrun⟩
  · intro path content loaded? limit found hfound
    have hreads := SourceFile.reads_ofText path (Bytes.encode content) loaded? limit
    rw [Bytes.decode_encode] at hreads
    exact hreads.cites_chunks hfound

/-- A repository with one file, a comment that breaks off inside a character before a line feed. -/
def tornRepository : FileSystem where
  top := .cons (Bytes.encode "repo") (.directory
    (.cons (Bytes.encode "a.py") (.file [0x23, 0xE2, 0x82, 0x0A, 0x0D]) .nil)) .nil

/-- A scanner of the repository that takes the file from a list of tracked paths. -/
def tornScanner : Scanner where
  options := { root := Path.ofString "repo", ignore := [] }
  filter := ⟨Path.ofString "repo", [], 100⟩
  tracked := Tracked.ofList [Path.ofString "a.py"]

/-- The pull from the repository gives a chunk, and a unit that lies past the end of the same bytes
gives one as well. -/
theorem chunks_cite_bytes_tornRepository :
    (∃ stream log c, tornScanner.scan tornRepository = .ok (stream, log) ∧
      some c ∈ stream.answersOver [tornRepository] ∧
      c.ReadFrom tornScanner.scope (tornScanner.expectedPaths tornRepository) [tornRepository]) ∧
    (∀ c ∈ (SourceFile.ofText "a.py" "#\n" none 50).chunks
        (.matched [⟨⟨7, 3⟩, .function, none, "f"⟩]),
      c.Cites (Bytes.encode "#\n")) := by
  obtain ⟨stream, log, hscan, hpull⟩ :
      ∃ stream log, tornScanner.scan tornRepository = .ok (stream, log) ∧
        (stream.next tornRepository).chunk?.isSome = true :=
    ⟨_, _, rfl, by decide +kernel⟩
  obtain ⟨c, hc⟩ := Option.isSome_iff_exists.mp hpull
  have hmem : some c ∈ stream.answersOver [tornRepository] := by
    rw [ChunkStream.answersOver, hc]
    exact List.mem_cons_self
  refine ⟨⟨stream, log, c, hscan, hmem, ?_⟩, ?_⟩
  · exact chunks_cite_bytes.1 _ _ _ _ _ _ hscan hmem
  · refine chunks_cite_bytes.2.2 _ _ _ _ _ fun u hu => ⟨"function", ?_⟩
    obtain rfl := List.mem_singleton.mp hu
    decide

end Scanner

end SourceChunks
