import SourceChunks.Proofs.Chunk.FileNames
import SourceChunks.Proofs.Chunk.LineSpans
import SourceChunks.Proofs.Scan.Remaining
import SourceChunks.Proofs.Scan.Sources

/-!
# Scans of a repository that lies elsewhere

A scan knows its files by paths that begin with the root, but nothing that it hands out does.  A
walk is a list of locations, each joined to the root (`FileSystem.exists_locations`), and the
locations are those of the tree alone.  What is reported on a location is the same below every root
that holds the same tree (`FileReport.ofPath_of_mirrored`): the file name and so the language, the
names that may be ignored, the entry that is read, and the text of the path.  A stream comes to what
its reports say (`ChunkStream.rest_of_reports`), so two such scans come to the same.
-/

namespace SourceChunks

/-! ### Roots that hold the same tree -/

/-- **Two directories look the same at every location**, in whatever order they list
their entries. -/
def Directory.Mirrors (d d' : Directory) : Prop :=
  ∀ l, ((Entry.directory d).get? l).map Entry.surface
    = ((Entry.directory d').get? l).map Entry.surface

/-- The order of two entries cannot be seen. -/
theorem Directory.mirrors_swap {m n : Bytes} (hne : m ≠ n) (e e' : Entry) (d : Directory) :
    (Directory.cons m e (.cons n e' d)).Mirrors (.cons n e' (.cons m e d)) := by
  intro l
  cases l with
  | nil => rfl
  | cons first rest =>
    have hfind : (Directory.cons m e (.cons n e' d)).find? first
        = (Directory.cons n e' (.cons m e d)).find? first := by
      simp only [Directory.find?]
      by_cases hm : m = first
      · rw [if_pos hm, if_neg (fun hn => hne (hm.trans hn.symm)), if_pos hm]
      · rw [if_neg hm, if_neg hm]
    rw [Entry.get?, Entry.get?, hfind]

/-- A regular file is all that can be seen of it. -/
theorem Entry.eq_of_surface {e e' : Entry} (he : e.isRegularFile) (h : e'.surface = e.surface) :
    e' = e := by
  cases e with
  | directory _ | link _ | outside _ => cases he
  | file _ | sealed _ _ | index _ =>
    cases e' with
    | directory _ => cases h
    | _ => exact h

namespace FileSystem

variable {fs fs' : FileSystem} {root root' : Path} {l : Location}

/-- **Two roots hold the same tree.**  They may be links, and lie in different file systems. -/
def Mirrored (fs : FileSystem) (root : Path) (fs' : FileSystem) (root' : Path) : Prop :=
  ∃ d d', fs.lookup root = .ok (.directory d) ∧ fs'.lookup root' = .ok (.directory d') ∧
    d.Mirrors d'

theorem Mirrored.symm (h : Mirrored fs root fs' root') : Mirrored fs' root' fs root := by
  obtain ⟨d, d', hd, hd', hsame⟩ := h
  exact ⟨d', d, hd', hd, fun l => (hsame l).symm⟩

theorem Mirrored.hasFileBelow (h : Mirrored fs root fs' root') (hfile : fs.HasFileBelow root l) :
    fs'.HasFileBelow root' l := by
  obtain ⟨d, d', hd, hd', hsame⟩ := h
  obtain ⟨d₀, e, hd₀, hget, hregular⟩ := hfile
  cases hd.symm.trans hd₀
  have hget' := hsame l
  rw [hget, Option.map_some, eq_comm, Option.map_eq_some_iff] at hget'
  obtain ⟨e', hget', hsurface⟩ := hget'
  refine ⟨d', e', hd', hget', ?_⟩
  -- a surface tells files from directories
  rw [← Entry.isRegularFile_surface, hsurface, Entry.isRegularFile_surface]
  exact hregular

theorem HasFileBelow.ne_nil (h : fs.HasFileBelow root l) : l ≠ [] := by
  rintro rfl
  obtain ⟨d, e, -, hget, hregular⟩ := h
  obtain rfl := Option.some.inj hget
  cases hregular

theorem lookup_descend (hfs : fs.WellFormed) {d : Directory} {e : Entry}
    (hd : fs.lookup root = .ok (.directory d)) (hget : (Entry.directory d).get? l = some e)
    (hregular : e.isRegularFile) : fs.lookup (root.descend l) = .ok e := by
  obtain ⟨R, hR, hat⟩ := lookup_eq_ok_iff.mp hd
  have hnames := ((hfs.of_lookup hd).isName_of_get? hget).2
  have hfile : fs.get? (R ++ l) = some e := by rw [get?_append, hat, Option.bind_some, hget]
  exact lookup_eq_ok_iff.mpr
    ⟨R ++ l, locate_descend hR hnames hfile (Entry.isLink_of_isRegularFile hregular), hfile⟩

/-- **Below both roots, a location leads to the same file.** -/
theorem Mirrored.lookup_eq (h : Mirrored fs root fs' root') (hfs : fs.WellFormed)
    (hfs' : fs'.WellFormed) (hfile : fs.HasFileBelow root l) :
    fs'.lookup (root'.descend l) = fs.lookup (root.descend l) := by
  obtain ⟨d', e', hd', hget', hregular'⟩ := h.hasFileBelow hfile
  obtain ⟨d, e, hd, hget, hregular⟩ := hfile
  obtain ⟨d₁, d₁', hd₁, hd₁', hsame⟩ := h
  cases hd.symm.trans hd₁
  cases hd'.symm.trans hd₁'
  have hsurface := hsame l
  rw [hget, hget', Option.map_some, Option.map_some, Option.some.injEq] at hsurface
  rw [lookup_descend hfs hd hget hregular, lookup_descend hfs' hd' hget' hregular',
    Entry.eq_of_surface hregular hsurface.symm]

/-! ### Walks as lists of locations -/

/-- **A walk joins locations to the root**: those of the files that have no ignored
name, in order. -/
theorem exists_locations (hfs : fs.WellFormed) {f : PathFilter}
    (hinput : isStandardInput f.root = false) :
    ∃ locations : List Location, fs.walk f.isIgnored f.root = locations.map f.root.descend ∧
      locations.Pairwise Location.Before ∧
      ∀ l, l ∈ locations ↔ fs.HasFileBelow f.root l ∧ ∀ n ∈ l, f.ignoresName n = false := by
  -- a listed path, and the names below the root that it was made of
  have hlisted : ∀ p, p ∈ fs.walk f.isIgnored f.root ↔ ∃ l, p = f.root.descend l ∧
      Path.names (Path.below f.root p) = l ∧ fs.HasFileBelow f.root l ∧
      ∀ n ∈ l, f.ignoresName n = false := by
    intro p
    rw [mem_walk hfs hinput]
    constructor
    · rintro ⟨l, rfl, hfile, hreached⟩
      have hnames := hfile.isName hfs
      exact ⟨l, rfl, Path.names_below_descend _ hnames, hfile,
        (PathFilter.reachedBelow_isIgnored hnames).mp hreached⟩
    · rintro ⟨l, hp, -, hfile, hkept⟩
      exact ⟨l, hp, hfile, (PathFilter.reachedBelow_isIgnored (hfile.isName hfs)).mpr hkept⟩
  refine ⟨(fs.walk f.isIgnored f.root).map fun p => Path.names (Path.below f.root p), ?_, ?_, ?_⟩
  · rw [List.map_map]
    refine (List.map_id _).symm.trans (List.map_congr_left fun p hp => ?_)
    obtain ⟨l, hl, hnames, -⟩ := (hlisted p).mp hp
    rw [Function.comp_apply, hnames, ← hl, id]
  · exact List.pairwise_map.mpr (pairwise_walk f.isIgnored hfs f.root)
  · intro l
    rw [List.mem_map]
    constructor
    · rintro ⟨p, hp, rfl⟩
      obtain ⟨l, -, rfl, hfile⟩ := (hlisted p).mp hp
      exact hfile
    · rintro ⟨hfile, hkept⟩
      have hnames := Path.names_below_descend f.root (hfile.isName hfs)
      exact ⟨f.root.descend l, (hlisted _).mpr ⟨l, rfl, hnames, hfile, hkept⟩, hnames⟩

/-- **Below two roots that hold the same tree, walks list the same locations.** -/
theorem Mirrored.exists_locations (h : Mirrored fs root fs' root') (hfs : fs.WellFormed)
    (hfs' : fs'.WellFormed) (hinput : isStandardInput root = false)
    (hinput' : isStandardInput root' = false) (f : PathFilter) :
    ∃ locations : List Location,
      fs.walk { f with root }.isIgnored root = locations.map root.descend ∧
      fs'.walk { f with root := root' }.isIgnored root' = locations.map root'.descend ∧
      ∀ l ∈ locations, fs.HasFileBelow root l := by
  obtain ⟨locations, hwalk, hsorted, hmem⟩ :=
    FileSystem.exists_locations (f := { f with root }) hfs hinput
  obtain ⟨locations', hwalk', hsorted', hmem'⟩ :=
    FileSystem.exists_locations (f := { f with root := root' }) hfs' hinput'
  -- both are sorted, and names are ignored alike below either root
  obtain rfl : locations = locations' := by
    refine hsorted.eq_of_mem_iff hsorted' fun l => ?_
    rw [hmem, hmem']
    exact and_congr_left fun _ => ⟨h.hasFileBelow, h.symm.hasFileBelow⟩
  exact ⟨locations, hwalk, hwalk', fun l hl => ((hmem l).mp hl).1⟩

end FileSystem

/-! ### Reports on a location -/

namespace Path

variable {root : Path} {l : Location}

theorem fileName?_descend (root : Path) (hl : l ≠ []) (h : ∀ n ∈ l, IsName n) :
    (root.descend l).fileName? = l.getLast? := by
  obtain ⟨front, last, rfl⟩ := (List.eq_nil_or_concat' l).resolve_left hl
  rw [fileName?, components_descend root h, List.map_append, ← List.append_assoc,
    List.map_singleton, List.getLast?_concat, List.getLast?_concat]

theorem relativeTo_descend (root : Path) (h : ∀ n ∈ l, IsName n) :
    relativeTo root (root.descend l) = String.intercalate "/" (l.map Bytes.decode) := by
  rw [relativeTo, names_below_descend root h]

/-- **How the path of a location is spelled as text**: its names are decoded, with slashes between
them and none in front. -/
structure SpelledAs (l : Location) (text : String) : Prop where
  nonempty : l ≠ []
  joined : text = String.intercalate "/" (l.map Bytes.decode)
  segments : splitAt '/' text.toList = l.map Bytes.decodeChars
  relative : text.toList.head? ≠ some '/'
  plain : ∀ segment ∈ splitAt '/' text.toList, segment ≠ [] ∧ segment ≠ ['.'] ∧ segment ≠ ['.', '.']

/-- **Below a root, paths are spelled without it.** -/
theorem spelledAs_relativeTo_descend (root : Path) (hl : l ≠ []) (h : ∀ n ∈ l, IsName n) :
    SpelledAs l (relativeTo root (root.descend l)) := by
  have hslash : ∀ cs ∈ l.map Bytes.decodeChars, '/' ∉ cs := by
    intro cs hcs
    obtain ⟨n, hn, rfl⟩ := List.mem_map.mp hcs
    exact (h n hn).decodeChars.2.2.2
  have hsegments : splitAt '/' (relativeTo root (root.descend l)).toList
      = l.map Bytes.decodeChars := by
    rw [relativeTo_descend root h, String.toList_intercalate, List.map_map,
      Bytes.toList_comp_decode, splitAt_eq_splitOn]
    exact List.splitOn_intercalate '/' hslash (by simpa using hl)
  have hplain : ∀ segment ∈ splitAt '/' (relativeTo root (root.descend l)).toList,
      segment ≠ [] ∧ segment ≠ ['.'] ∧ segment ≠ ['.', '.'] := by
    rw [hsegments]
    intro segment hsegment
    obtain ⟨n, hn, rfl⟩ := List.mem_map.mp hsegment
    obtain ⟨hnil, hdot, hdots, -⟩ := (h n hn).decodeChars
    exact ⟨hnil, hdot, hdots⟩
  refine ⟨hl, relativeTo_descend root h, hsegments, ?_, hplain⟩
  -- a slash in front would stand behind an empty segment
  intro hfirst
  obtain ⟨rest, hrest⟩ := List.head?_eq_some_iff.mp hfirst
  refine (hplain [] ?_).1 rfl
  rw [hrest, ← List.nil_append ('/' :: rest), splitAt_append_cons]
  exact List.mem_append_left _ List.mem_cons_self

end Path

/-- **A scope with another root.** -/
def ScanScope.movedTo (scope : ScanScope) (root : Path) : ScanScope :=
  ⟨root, { scope.filter with root }, scope.chunker⟩

section Reports

open FileSystem

variable {fs fs' : FileSystem} {root root' : Path} {l : Location}

theorem PathFilter.judge_of_mirrored (h : Mirrored fs root fs' root') (hfs : fs.WellFormed)
    (hfs' : fs'.WellFormed) (hfile : fs.HasFileBelow root l) (f : PathFilter) :
    { f with root := root' }.judge fs' (root'.descend l)
      = { f with root }.judge fs (root.descend l) := by
  have hnames := hfile.isName hfs
  have hignored : { f with root := root' }.isIgnored (root'.descend l)
      = { f with root }.isIgnored (root.descend l) :=
    (isIgnored_descend (f := { f with root := root' }) hnames).trans
      (isIgnored_descend (f := { f with root }) hnames).symm
  have hlanguage : Registry.builtin.resolve? (root'.descend l)
      = Registry.builtin.resolve? (root.descend l) := by
    apply Registry.resolve?_of_fileName?
    rw [Path.fileName?_descend root' hfile.ne_nil hnames,
      Path.fileName?_descend root hfile.ne_nil hnames]
  have hstatus : fs'.status (root'.descend l) = fs.status (root.descend l) := by
    rw [status, status, h.lookup_eq hfs hfs' hfile]
  rw [judge, judge, hignored, hlanguage, hstatus]

/-- **Below two roots that hold the same tree, the reports on a location are the same.** -/
theorem FileReport.ofPath_of_mirrored (h : Mirrored fs root fs' root') (hfs : fs.WellFormed)
    (hfs' : fs'.WellFormed) (hfile : fs.HasFileBelow root l) (scope : ScanScope) :
    ofPath fs' (scope.movedTo root') (root'.descend l)
      = ofPath fs (scope.movedTo root) (root.descend l) := by
  have hnames := hfile.isName hfs
  have hjudge := PathFilter.judge_of_mirrored h hfs hfs' hfile scope.filter
  have hread : fs'.read (root'.descend l) = fs.read (root.descend l) := by
    rw [FileSystem.read, FileSystem.read, h.lookup_eq hfs hfs' hfile]
  -- the root is in the scope and in the path, and the text below the root has neither
  have hcontents : ofContents (scope.movedTo root') (root'.descend l)
      = ofContents (scope.movedTo root) (root.descend l) := by
    funext contents
    simp only [ofContents, ScanScope.movedTo, Path.relativeTo_descend _ hnames]
  rw [ofPath, ofPath, hread, hcontents]
  simp only [ScanScope.movedTo, hjudge]

end Reports

/-- **A stream comes to what its reports say**: the same reports give the same chunks and the same
counters, whatever the paths are called. -/
theorem ChunkStream.rest_of_reports {fs fs' : FileSystem} (s s' : ChunkStream)
    (hpending : s.pending = s'.pending) (hstats : s.stats = s'.stats)
    (h : s.paths.map (FileReport.ofPath fs s.scope)
      = s'.paths.map (FileReport.ofPath fs' s'.scope)) :
    (s.rest fs).chunks = (s'.rest fs').chunks ∧
      (s.rest fs).stream.stats = (s'.rest fs').stream.stats := by
  have hsupply : supply fs s.scope s.paths = supply fs' s'.scope s'.paths := by
    rw [supply, supply, ← List.flatMap_map, h, List.flatMap_map]
  have htally : tally fs s.scope s.stats s.paths = tally fs' s'.scope s'.stats s'.paths := by
    rw [tally, tally, hstats, ← List.foldl_map (f := FileReport.ofPath fs s.scope)
      (g := fun st r => FileReport.count st r), h, List.foldl_map]
  rw [(rest_spec fs s).1, (rest_spec fs s).2, (rest_spec fs' s').1, (rest_spec fs' s').2, hpending,
    hsupply, htally, hstats]
  exact ⟨rfl, rfl⟩

namespace Scanner

open FileSystem

variable {fs fs' : FileSystem} {o : ScanOptions} {s : Scanner} {root' : Path}

/-- **A scanner of another root**, with the same options otherwise. -/
def movedTo (s : Scanner) (root : Path) : Scanner :=
  { s with options := { s.options with root }, filter := { s.filter with root } }

theorem scope_movedTo (s : Scanner) (root : Path) : (s.movedTo root).scope = s.scope.movedTo root :=
  rfl

theorem expectedPaths_movedTo (hwalk : s.options.useTracked = false) (fs : FileSystem)
    (root : Path) :
    (s.movedTo root).expectedPaths fs = fs.walk { s.filter with root }.isIgnored root := by
  unfold expectedPaths movedTo
  simp only [hwalk]

theorem movedTo_root (h : ofOptions fs o = .ok s) : s.movedTo o.root = s := by
  have hfilter : { s.filter with root := o.root } = s.filter := by rw [← filter_root h]
  rw [movedTo, hfilter, ← (ofOptions_eq_ok h).1]

/-- **Options that are accepted are accepted for any other directory.** -/
theorem ofOptions_movedTo (h : ofOptions fs o = .ok s) (hroot' : fs'.isDirectory root' = true) :
    ofOptions fs' { o with root := root' } = .ok (s.movedTo root') := by
  obtain ⟨hoptions, hproblem, hfilter⟩ := ofOptions_eq_ok h
  have hproblem' : { o with root := root' }.problem? fs' = none := by
    unfold ScanOptions.problem? at hproblem ⊢
    rw [isDirectory_of_ofOptions h] at hproblem
    rw [hroot']
    exact hproblem
  have hfilter' : PathFilter.ofPatterns root' o.ignore o.maxFileSize
      = .ok { s.filter with root := root' } := by
    rw [PathFilter.ofPatterns_eq_ok_iff] at hfilter ⊢
    exact ⟨rfl, hfilter.2⟩
  rw [ofOptions, hroot', hproblem', movedTo, hoptions, tracked_of_ofOptions h]
  dsimp only
  rw [hfilter']
  rfl

theorem filepath_of_mem_expectedChunks {p : Path} {c : Chunk} (hc : c ∈ s.expectedChunks fs p) :
    c.filepath = Path.relativeTo s.options.root p := by
  rw [← chunks_ofPath] at hc
  obtain ⟨-, b, -, hc⟩ := FileReport.exists_of_mem_ofPath hc
  exact SourceFile.filepath_of_mem_chunks hc

/-- **Where a repository lies makes no difference.**  If two roots hold the same tree, and neither
of them is the standard input, then whatever options are accepted for the one are accepted for the
other, and the walks below both come to the same chunks and the same counters.  Every chunk carries
the path of its file below the root. -/
theorem scan_of_mirrored (hfs : fs.WellFormed) (hfs' : fs'.WellFormed)
    (hinput : isStandardInput o.root = false) (hinput' : isStandardInput root' = false)
    (hmirrored : Mirrored fs o.root fs' root') (hwalk : o.useTracked = false)
    (haccepted : ofOptions fs o = .ok s) :
    ∃ moved stream log stream' log', ofOptions fs' { o with root := root' } = .ok moved ∧
      s.scan fs = .ok (stream, log) ∧ moved.scan fs' = .ok (stream', log') ∧
      (stream.rest fs).chunks = (stream'.rest fs').chunks ∧
      (stream.rest fs).stream.stats = (stream'.rest fs').stream.stats ∧
      ∀ c ∈ (stream.rest fs).chunks, ∃ l, fs.HasFileBelow o.root l ∧
        c ∈ s.expectedChunks fs (o.root.descend l) ∧ Path.SpelledAs l c.filepath := by
  have hroot' : fs'.isDirectory root' = true := by
    obtain ⟨-, d', -, hd', -⟩ := hmirrored
    rw [isDirectory, status, hd']
    rfl
  have hmoved := ofOptions_movedTo haccepted hroot'
  obtain ⟨source, log, hscan⟩ := scan_of_accepted haccepted s.tracked fs
  obtain ⟨source', log', hscan'⟩ := scan_of_accepted hmoved s.tracked fs'
  have hoptions := (ofOptions_eq_ok haccepted).1
  have hsame := movedTo_root haccepted
  rw [← hoptions] at hwalk
  -- both scans walk, and list the same locations
  obtain ⟨locations, hpaths, hpaths', hfiles⟩ :=
    hmirrored.exists_locations hfs hfs' hinput hinput' s.filter
  rw [← expectedPaths_movedTo hwalk, hsame] at hpaths
  rw [← expectedPaths_movedTo hwalk] at hpaths'
  have hreports : (s.expectedPaths fs).map (FileReport.ofPath fs s.scope)
      = ((s.movedTo root').expectedPaths fs').map
          (FileReport.ofPath fs' (s.movedTo root').scope) := by
    rw [hpaths, hpaths', List.map_map, List.map_map]
    refine List.map_congr_left fun l hl => ?_
    rw [Function.comp_apply, Function.comp_apply, scope_movedTo,
      FileReport.ofPath_of_mirrored hmirrored hfs hfs' (hfiles l hl), ← scope_movedTo, hsame]
  obtain ⟨hchunks, hstats⟩ := ChunkStream.rest_of_reports
    { scope := s.scope, source, paths := s.expectedPaths fs }
    { scope := (s.movedTo root').scope, source := source',
      paths := (s.movedTo root').expectedPaths fs' } rfl rfl hreports
  refine ⟨_, _, log, _, log', hmoved, hscan, hscan', hchunks, hstats, fun c hc => ?_⟩
  rw [(ChunkStream.rest_spec fs _).1, List.nil_append, supply_scope, List.mem_flatMap] at hc
  obtain ⟨p, hp, hc⟩ := hc
  obtain ⟨l, hl, rfl⟩ := List.mem_map.mp (hpaths ▸ hp)
  refine ⟨l, hfiles l hl, hc, ?_⟩
  rw [filepath_of_mem_expectedChunks hc, hoptions]
  exact Path.spelledAs_relativeTo_descend o.root (hfiles l hl).ne_nil ((hfiles l hl).isName hfs)

/-- A directory with a file whose name is no text. -/
def copiedSources : Entry :=
  .directory (.cons [0x61, 0xFF, 0x2E, 0x70, 0x79] (.file (Bytes.encode "x = 1\n")) .nil)

/-- A directory with a file, to be ignored. -/
def copiedProducts : Entry :=
  .directory (.cons (Bytes.encode "b.py") (.file (Bytes.encode "y = 2\n")) .nil)

/-- Two copies of a tree, one of them below names that are ignored elsewhere, and a link to the
other. -/
def copiedRepository : FileSystem where
  top := .cons (Bytes.encode "build") (.directory (.cons (Bytes.encode "target") (.directory
      (.cons (Bytes.encode "src") copiedSources
      (.cons (Bytes.encode "build") copiedProducts .nil))) .nil))
    (.cons (Bytes.encode "copy") (.directory
      (.cons (Bytes.encode "build") copiedProducts (.cons (Bytes.encode "src") copiedSources .nil)))
    (.cons (Bytes.encode "dist") (.link (Path.ofString "copy/")) .nil))

/-- A scan of the first copy. -/
def copiedOptions : ScanOptions where
  root := Path.ofString "./build//target/."
  useTracked := false

/-- The root of the second copy, through the link. -/
def linkedRoot : Path := Path.ofString "build/../dist"

theorem mirrored_copiedRepository :
    Mirrored copiedRepository copiedOptions.root copiedRepository linkedRoot :=
  ⟨_, _, rfl, rfl, Directory.mirrors_swap (by decide) _ _ _⟩

/-- Both copies give the one file that is not ignored. -/
theorem scan_of_mirrored_copiedRepository :
    copiedRepository.WellFormed ∧ isStandardInput copiedOptions.root = false ∧
    isStandardInput linkedRoot = false ∧
    Mirrored copiedRepository copiedOptions.root copiedRepository linkedRoot ∧
    copiedOptions.useTracked = false ∧
    ∃ s moved stream log stream' log', ofOptions copiedRepository copiedOptions = .ok s ∧
      ofOptions copiedRepository { copiedOptions with root := linkedRoot } = .ok moved ∧
      s.scan copiedRepository = .ok (stream, log) ∧
      moved.scan copiedRepository = .ok (stream', log') ∧
      (stream.rest copiedRepository).chunks.map (·.filepath) = ["src/a\uFFFD.py"] ∧
      (stream.rest copiedRepository).chunks = (stream'.rest copiedRepository).chunks ∧
      (stream.rest copiedRepository).stream.stats
        = (stream'.rest copiedRepository).stream.stats ∧
      ∀ c ∈ (stream.rest copiedRepository).chunks, ∃ l,
        copiedRepository.HasFileBelow copiedOptions.root l ∧
        c ∈ s.expectedChunks copiedRepository (copiedOptions.root.descend l) ∧
        Path.SpelledAs l c.filepath := by
  have hfs : copiedRepository.WellFormed := by decide
  have hinput : isStandardInput copiedOptions.root = false := by decide
  have hinput' : isStandardInput linkedRoot = false := by decide
  obtain ⟨s, stream, log, haccepted, hscan, hfile⟩ : ∃ s stream log,
      ofOptions copiedRepository copiedOptions = .ok s ∧
      s.scan copiedRepository = .ok (stream, log) ∧
      (stream.pending ++ ChunkStream.supply copiedRepository stream.scope stream.paths).map
        (·.filepath) = ["src/a\uFFFD.py"] := ⟨_, _, _, rfl, rfl, by decide +kernel⟩
  rw [← (ChunkStream.rest_spec copiedRepository stream).1] at hfile
  obtain ⟨moved, stream₁, log₁, stream', log', hmoved, hscan₁, hscan', hsame⟩ :=
    scan_of_mirrored hfs hfs hinput hinput' mirrored_copiedRepository rfl haccepted
  obtain ⟨rfl, -⟩ := Prod.mk.inj (Except.ok.inj (hscan₁.symm.trans hscan))
  exact ⟨hfs, hinput, hinput', mirrored_copiedRepository, rfl, s, moved, stream₁, log, stream',
    log', haccepted, hmoved, hscan, hscan', hfile, hsame⟩

end Scanner

end SourceChunks
