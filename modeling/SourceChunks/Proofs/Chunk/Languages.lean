import SourceChunks.Proofs.Chunk.FileNames
import SourceChunks.Proofs.Extraction
import SourceChunks.Proofs.Files.Spelling
import SourceChunks.Proofs.Scan.Remaining
import SourceChunks.Proofs.Scan.Reports
import SourceChunks.Proofs.Scan.Undisturbed

/-!
# One path, one language

The filter asks for the language of a path as it is; the chunker asks for that of the text below the
root, with U+FFFD in the place of what is no text and without `.` and `..`.  Both get the same
answer (`Registry.resolve?_relativeTo`), for the extension of an eligible path is text, so nothing
behind the last full stop is replaced, and the file name is never dropped: only a path that means
the root itself has nothing below the root, and the root is a directory (`PathFilter.below_ne_nil`).

So a scan knows the language of everything it hands out or counts (`ChunkStream.Classified`), at
every pull, also if the files change between pulls.
-/

namespace SourceChunks

/-! ### The language of a path below a root -/

namespace Bytes

theorem encodeChars_append_cons (cs ds : List Char) :
    encodeChars (cs ++ '.' :: ds) = encodeChars cs ++ Path.dot :: encodeChars ds := by
  rw [encodeChars, List.flatMap_append, List.flatMap_cons]
  rfl

end Bytes

namespace Registry

variable {root p : Path}

/-- **The text of a path below a root keeps the extension**, if the extension is text. -/
theorem lowerExtension?_relativeTo (hbelow : Path.below root p ≠ [])
    (h : (lowerExtension? p).isSome) :
    lowerExtension? (Path.ofString (Path.relativeTo root p)) = lowerExtension? p := by
  obtain ⟨low, hlow⟩ := Option.isSome_iff_exists.mp h
  obtain ⟨text, hext, -⟩ := lowerExtension?_eq_some_iff.mp hlow
  obtain ⟨stem, hstem, hdot, hn⟩ := Path.extension?_eq_some_iff.mp hext
  have hname := (Path.isName_of_fileName? hn).encodeChars_decodeChars
  have hbase := Path.isBaseName_relativeTo hn hbelow
  -- the decoded file name is written with the same extension
  have hwritten : Bytes.encodeChars (Bytes.decodeChars (stem ++ Path.dot :: Bytes.encode text))
      = Bytes.encodeChars (Bytes.decodeChars stem) ++ Path.dot :: Bytes.encode text := by
    have hsplit : Bytes.decodeChars (stem ++ Path.dot :: Bytes.encode text)
        = Bytes.decodeChars stem ++ '.' :: Bytes.decodeChars (Bytes.encode text) :=
      Bytes.decodeChars_append_cons (show Bytes.IsAscii Path.dot by decide) stem _
    rw [hsplit, Bytes.encodeChars_append_cons, Bytes.encode, Bytes.decodeChars_encodeChars]
  have hne : Bytes.encodeChars (Bytes.decodeChars stem) ≠ [] := by
    rwa [ne_eq, Bytes.encodeChars_eq_nil_iff, Bytes.decodeChars_eq_nil_iff]
  have hsame : (Path.ofString (Path.relativeTo root p)).extension? = some (Bytes.encode text) := by
    rw [Path.extension?_eq_some_iff]
    exact ⟨_, hne, hdot, by rw [Path.fileName?_ofString hbase hname, hwritten]⟩
  rw [lowerExtension?, lowerExtension?, hsame, hext]

/-- **The text of a path below a root has the language of the path.** -/
theorem resolve?_relativeTo (r : Registry) (hbelow : Path.below root p ≠ [])
    (h : (r.resolve? p).isSome) :
    r.resolve? (Path.ofString (Path.relativeTo root p)) = r.resolve? p := by
  have hext : (lowerExtension? p).isSome := by
    obtain ⟨e, he⟩ := Option.isSome_iff_exists.mp h
    obtain ⟨low, hlow, -⟩ := Option.bind_eq_some_iff.mp he
    rw [hlow]
    rfl
  rw [resolve?, resolve?, lowerExtension?_relativeTo hbelow hext]

/-- **The names of the supported languages.** -/
def languageNames : List String := table.map (·.name)

theorem plainText_not_mem_languageNames : SourceFile.plainText ∉ languageNames := by
  decide +kernel

theorem name_mem_languageNames {e : Entry} (h : builtin.resolve? p = some e) :
    e.row.name ∈ languageNames := by
  obtain ⟨row, hrow, rfl⟩ := List.mem_map.mp (mem_entries_of_resolve? h)
  exact List.mem_map.mpr ⟨row, hrow, rfl⟩

end Registry

/-- **An eligible path lies below every directory** that its text is taken from: a path that means
the directory leads to it, and a directory is not eligible. -/
theorem PathFilter.below_ne_nil {f : PathFilter} {fs : FileSystem} {root p : Path}
    (hroot : fs.isDirectory root = true) (h : f.isEligible fs p = true) :
    Path.below root p ≠ [] := by
  intro hbelow
  obtain ⟨stem, ext, hn, -⟩ := Registry.exists_extension (isSome_of_isEligible h)
  have hcomponents := Path.components_eq_of_below hn hbelow
  obtain ⟨e, hlookup, hadmits⟩ := exists_of_isEligible h
  obtain ⟨l, hl, he⟩ := FileSystem.lookup_eq_ok_iff.mp hlookup
  obtain ⟨R, hR, hdir⟩ := FileSystem.exists_of_isDirectory hroot
  obtain ⟨d, hd⟩ := Option.isSome_iff_exists.mp hdir
  rw [← FileSystem.locate_unique hcomponents hl hR, FileSystem.directoryAt?_eq_some_iff, he] at hd
  rw [Option.some.inj hd] at hadmits
  simp [admits, FileSystem.statusOf] at hadmits

/-! ### Chunks of a path -/

/-- **A chunk of a supported language**, which is named after the last part of its path if it is a
whole file. -/
structure Chunk.IsClassified (c : Chunk) : Prop where
  language_mem : c.language ∈ Registry.languageNames
  name_eq : c.kind = .moduleFile →
    c.name = (splitAt '/' c.filepath.toList).getLast?.map String.ofList

section Reports

variable {fs : FileSystem} {scope : ScanScope} {p : Path}

/-- **The filter and the chunker see the same language.** -/
theorem ScanScope.exists_language (hroot : fs.isDirectory scope.root = true)
    (h : scope.filter.isEligible fs p = true) (contents : Bytes) :
    ∃ e, Registry.builtin.resolve? p = some e ∧
      (scope.sourceFile p contents).language = e.row.name := by
  have hsome := PathFilter.isSome_of_isEligible h
  obtain ⟨e, he⟩ := Option.isSome_iff_exists.mp hsome
  have hsame :=
    Registry.resolve?_relativeTo Registry.builtin (PathFilter.below_ne_nil hroot h) hsome
  refine ⟨e, he, ?_⟩
  show ((Registry.builtin.resolve? _).map (·.row.name)).getD _ = _
  rw [hsame, he]
  rfl

theorem FileReport.isClassified_ofContents (hroot : fs.isDirectory scope.root = true)
    (h : scope.filter.isEligible fs p = true) {contents : Bytes} {c : Chunk}
    (hc : c ∈ (ofContents scope p contents).chunks) : c.IsClassified := by
  rw [chunks_ofContents] at hc
  obtain ⟨e, he, hlanguage⟩ := ScanScope.exists_language hroot h contents
  refine ⟨?_, fun hkind => ?_⟩
  · rw [SourceFile.language_of_mem_chunks hc, hlanguage]
    exact Registry.name_mem_languageNames he
  · cases hfound : scope.found p contents with
    | matched units =>
      rw [hfound] at hc
      obtain ⟨u, hu, rfl⟩ := List.mem_map.mp hc
      exact absurd hkind ((Extraction.matched_units hfound).2 u hu)
    | unmatched =>
      rw [hfound] at hc
      obtain rfl := List.mem_singleton.mp hc
      obtain ⟨hbase, -⟩ := (scope.sourceFile p contents).wholeName_spec
        (PathFilter.isSome_of_isEligible h) rfl
      show some (scope.sourceFile p contents).wholeName
        = (splitAt '/' (scope.sourceFile p contents).path.toList).getLast?.map String.ofList
      rw [hbase.getLast?_splitAt, Option.map_some, String.ofList_toList]

theorem FileReport.isClassified_ofPath (hroot : fs.isDirectory scope.root = true) {c : Chunk}
    (hc : c ∈ (ofPath fs scope p).chunks) : c.IsClassified := by
  obtain ⟨heligible, b, -, hc⟩ := exists_of_mem_ofPath hc
  exact isClassified_ofContents hroot heligible hc

/-- All names in a tally are those of supported languages. -/
def ScanStats.IsClassified (stats : ScanStats) : Prop :=
  ∀ entry ∈ stats.languages, entry.1 ∈ Registry.languageNames

/-- **A path is counted under a supported language**, if it is counted as a file at all. -/
theorem FileReport.isClassified_count (hroot : fs.isDirectory scope.root = true)
    {stats : ScanStats} (h : stats.IsClassified) :
    ((ofPath fs scope p).count stats).IsClassified := by
  obtain ⟨-, v, hreport⟩ | ⟨-, e, -, hreport⟩ | ⟨heligible, b, -, hreport⟩ :=
    ofPath_cases fs scope p
  · rw [hreport]
    exact h
  · rw [hreport]
    exact h
  · rw [hreport, count_ofContents]
    obtain ⟨e, he, hlanguage⟩ := ScanScope.exists_language hroot heligible b
    intro entry hentry
    rcases Tally.mem_update hentry with hold | ⟨k, rfl⟩
    · exact h entry hold
    · rw [hlanguage]
      exact Registry.name_mem_languageNames he

end Reports

/-! ### Streams -/

namespace ChunkStream

variable {fs : FileSystem} {s : ChunkStream}

theorem isClassified_tally {scope : ScanScope} (hroot : fs.isDirectory scope.root = true)
    {stats : ScanStats} (h : stats.IsClassified) (paths : List Path) :
    (tally fs scope stats paths).IsClassified := by
  induction paths generalizing stats with
  | nil => exact h
  | cons p rest ih => exact ih (FileReport.isClassified_count hroot h)

theorem isClassified_supply {scope : ScanScope} (hroot : fs.isDirectory scope.root = true)
    {paths : List Path} {c : Chunk} (hc : c ∈ supply fs scope paths) : c.IsClassified := by
  obtain ⟨p, -, hc⟩ := List.mem_flatMap.mp hc
  exact FileReport.isClassified_ofPath hroot hc

/-- **A stream that knows the language of all it holds and has counted.** -/
structure Classified (s : ChunkStream) : Prop where
  pending : ∀ c ∈ s.pending, c.IsClassified
  stats : s.stats.IsClassified

/-- **One pull keeps to supported languages**, and so does the chunk that it hands out. -/
theorem Classified.next (h : s.Classified) (hroot : fs.isDirectory s.scope.root = true) :
    (s.next fs).stream.Classified ∧ ∀ c, (s.next fs).chunk? = some c → c.IsClassified := by
  obtain ⟨c, cs, hpending, hnext⟩ | ⟨-, n, c, cs, log, -, hsupply, hnext⟩ | ⟨-, -, log, hnext⟩ :=
    next_cases fs s
  · have hmem := h.pending
    rw [hpending, List.forall_mem_cons] at hmem
    rw [hnext]
    refine ⟨⟨hmem.2, h.stats⟩, ?_⟩
    rintro _ ⟨⟩
    exact hmem.1
  · have hmem : ∀ d ∈ c :: cs, d.IsClassified := by
      rw [← hsupply]
      exact fun d hd => isClassified_supply hroot hd
    rw [List.forall_mem_cons] at hmem
    rw [hnext]
    refine ⟨⟨hmem.2, isClassified_tally hroot h.stats _⟩, ?_⟩
    rintro _ ⟨⟩
    exact hmem.1
  · rw [hnext]
    refine ⟨⟨List.forall_mem_nil _, isClassified_tally hroot h.stats _⟩, ?_⟩
    rintro _ ⟨⟩

/-- **The stream after pulls between which the files may change.** -/
def streamOver : List FileSystem → ChunkStream → ChunkStream
  | [], s => s
  | fs :: later, s => streamOver later (s.next fs).stream

/-- **Any number of pulls keep to supported languages**, by induction on the moments
of the pulls. -/
theorem Classified.over (h : s.Classified) {moments : List FileSystem}
    (hroot : ∀ now ∈ moments, now.isDirectory s.scope.root = true) :
    (s.streamOver moments).Classified ∧ ∀ c, some c ∈ s.answersOver moments → c.IsClassified := by
  induction moments generalizing s with
  | nil => exact ⟨h, fun c hc => absurd hc List.not_mem_nil⟩
  | cons fs later ih =>
    rw [List.forall_mem_cons] at hroot
    obtain ⟨hstream, hchunk⟩ := h.next hroot.1
    obtain ⟨hlater, hanswers⟩ := ih hstream (by rw [scope_next]; exact hroot.2)
    refine ⟨hlater, fun c hc => ?_⟩
    rcases List.mem_cons.mp hc with hc | hc
    · exact hchunk c hc.symm
    · exact hanswers c hc

end ChunkStream

namespace Scanner

/-- **The filter and the chunker agree on languages.**  Whatever path is eligible, however it is
spelled and whatever bytes its names have, the text of it below the root has the language that the
filter saw.  So, as long as the root is the directory that a scanner has made sure of, every chunk
of a scan has a supported language, whole files are named after the last part of their paths, and
no other language is counted. -/
theorem languages_agree :
    (∀ (f : PathFilter) (fs : FileSystem) (p : Path),
      fs.isDirectory f.root = true → f.isEligible fs p = true →
        ∃ e, Registry.builtin.resolve? p = some e ∧
          Registry.builtin.resolve? (Path.ofString (Path.relativeTo f.root p)) = some e) ∧
    (∀ (fs : FileSystem) (o : ScanOptions) (s : Scanner) (tracked : Tracked.Provider),
      ofOptions fs o = .ok s → ∃ stream log, { s with tracked }.scan fs = .ok (stream, log) ∧
        ∀ moments : List FileSystem, (∀ now ∈ moments, now.isDirectory o.root = true) →
          (∀ c, some c ∈ stream.answersOver moments →
            c.language ≠ SourceFile.plainText ∧ c.language ∈ Registry.languageNames ∧
            (c.kind = .moduleFile →
              c.name = (splitAt '/' c.filepath.toList).getLast?.map String.ofList)) ∧
          ∀ language count, (language, count) ∈ (stream.streamOver moments).stats.languages →
            language ∈ Registry.languageNames) := by
  refine ⟨?_, ?_⟩
  · intro f fs p hroot heligible
    have hsome := PathFilter.isSome_of_isEligible heligible
    obtain ⟨e, he⟩ := Option.isSome_iff_exists.mp hsome
    refine ⟨e, he, ?_⟩
    rw [Registry.resolve?_relativeTo _ (PathFilter.below_ne_nil hroot heligible) hsome, he]
  · intro fs o s tracked haccepted
    obtain ⟨source, log, hscan⟩ := scan_of_accepted haccepted tracked fs
    refine ⟨_, log, hscan, fun moments hroot => ?_⟩
    have hscope : s.scope.root = o.root := by
      rw [scope, (ofOptions_eq_ok haccepted).1]
    rw [← hscope] at hroot
    have hstart : ChunkStream.Classified
        { scope := s.scope, source, paths := { s with tracked }.expectedPaths fs } :=
      ⟨List.forall_mem_nil _, List.forall_mem_nil _⟩
    obtain ⟨hstream, hanswers⟩ := hstart.over hroot
    refine ⟨fun c hc => ?_, fun language count hmem => hstream.stats _ hmem⟩
    obtain ⟨hlanguage, hname⟩ := hanswers c hc
    refine ⟨fun hplain => ?_, hlanguage, hname⟩
    rw [hplain] at hlanguage
    exact Registry.plainText_not_mem_languageNames hlanguage

/-- A repository in a directory `lib.py`, with one file whose name is no text and
ends with `.PY`. -/
def latinRepository : FileSystem where
  top := .cons (Bytes.encode "lib.py") (.directory
    (.cons [0x62, 0xFF, 0x2E, 0x50, 0x59] (.file (Bytes.encode "x = 1\n")) .nil)) .nil

/-- A filter over the repository, its root spelled with more than it needs. -/
def latinFilter : PathFilter := ⟨Path.ofString "./lib.py//", [], 100⟩

/-- The file of the repository. -/
def latinFile : Path := latinFilter.root.join ⟨[0x62, 0xFF, 0x2E, 0x50, 0x59]⟩

/-- Two paths that mean the root itself, and the file. -/
def latinTracked : Tracked.Provider :=
  Tracked.ofList [⟨[]⟩, Path.ofString ".", ⟨[0x62, 0xFF, 0x2E, 0x50, 0x59]⟩]

/-- The file is eligible, and a pull gives it as a whole. -/
theorem languages_agree_latinRepository :
    (latinRepository.isDirectory latinFilter.root = true ∧
      latinFilter.isEligible latinRepository latinFile = true ∧
      ∃ e, Registry.builtin.resolve? latinFile = some e ∧
        Registry.builtin.resolve? (Path.ofString (Path.relativeTo latinFilter.root latinFile))
          = some e) ∧
    ∃ checked stream log c, ofOptions latinRepository { root := latinFilter.root } = .ok checked ∧
      { checked with tracked := latinTracked }.scan latinRepository = .ok (stream, log) ∧
      some c ∈ stream.answersOver [latinRepository] ∧ c.kind = .moduleFile ∧
      c.language ∈ Registry.languageNames ∧
      c.name = (splitAt '/' c.filepath.toList).getLast?.map String.ofList ∧
      ∀ language count, (language, count) ∈ (stream.streamOver [latinRepository]).stats.languages →
        language ∈ Registry.languageNames := by
  have hroot : latinRepository.isDirectory latinFilter.root = true := by decide +kernel
  have heligible : latinFilter.isEligible latinRepository latinFile = true := by decide +kernel
  have hsame := languages_agree.1 latinFilter latinRepository latinFile hroot heligible
  obtain ⟨checked, stream, log, haccepted, hscan, hpull⟩ : ∃ checked stream log,
      ofOptions latinRepository { root := latinFilter.root } = .ok checked ∧
      { checked with tracked := latinTracked }.scan latinRepository = .ok (stream, log) ∧
      (stream.next latinRepository).chunk?.map (·.kind) = some .moduleFile :=
    ⟨_, _, _, rfl, rfl, by decide +kernel⟩
  obtain ⟨c, hc, hkind⟩ := Option.map_eq_some_iff.mp hpull
  have hmem : some c ∈ stream.answersOver [latinRepository] := by
    rw [ChunkStream.answersOver, hc]
    exact List.mem_cons_self
  obtain ⟨stream', log', hscan', hall⟩ := languages_agree.2 _ _ checked latinTracked haccepted
  obtain ⟨rfl, -⟩ := Prod.mk.inj (Except.ok.inj (hscan'.symm.trans hscan))
  obtain ⟨hchunks, hlanguages⟩ :=
    hall [latinRepository] (List.forall_mem_singleton.mpr hroot)
  obtain ⟨-, hlanguage, hname⟩ := hchunks c hmem
  exact ⟨⟨hroot, heligible, hsame⟩, checked, stream', log, c, haccepted, hscan, hmem, hkind,
    hlanguage, hname hkind, hlanguages⟩

end Scanner

end SourceChunks
