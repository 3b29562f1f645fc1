import SourceChunks.Proofs.Scan.Remaining
import SourceChunks.Proofs.Scan.Sources

/-!
# Stricter options

Options with more ignore patterns and a smaller limit make a stricter filter
(`PathFilter.Tightens`), and a stricter filter lets through less.  It also cuts off more of a walk,
but only what it would not let through (`FileSystem.mem_walk_iff_of_tightens`).  So a scan with
stricter options hands out the chunks of the files that are still eligible, as they were and in the
order in which they were, and nothing else (`Scanner.scan_of_tightened`).
-/

namespace SourceChunks

/-! ### Patterns and filters -/

namespace IgnorePattern

/-- **More texts give more patterns.** -/
theorem withDefaults_subset {extra extra' : List String} (hextra : extra' ⊆ extra)
    {patterns patterns' : List IgnorePattern} (h : withDefaults extra = .ok patterns)
    (h' : withDefaults extra' = .ok patterns') : patterns' ⊆ patterns := by
  intro pattern hpattern
  obtain ⟨text, htext, hread⟩ := (mem_of_mapM h').mp hpattern
  refine (mem_of_mapM h).mpr ⟨text, ?_, hread⟩
  rw [List.mem_append] at htext ⊢
  exact htext.imp_right fun hmem => hextra hmem

end IgnorePattern

namespace PathFilter

/-- **A filter is at least as strict as another one** below the same root. -/
structure Tightens (tight loose : PathFilter) : Prop where
  root_eq : tight.root = loose.root
  patterns_subset : loose.patterns ⊆ tight.patterns
  size_le : tight.maxFileSize ≤ loose.maxFileSize

namespace Tightens

variable {tight loose : PathFilter} {fs : FileSystem} {p : Path}

theorem ignoresName (h : tight.Tightens loose) {n : Bytes} (hn : tight.ignoresName n = false) :
    loose.ignoresName n = false := by
  unfold PathFilter.ignoresName at hn ⊢
  rw [List.any_eq_false] at hn ⊢
  exact fun pattern hpattern => hn pattern (h.patterns_subset hpattern)

theorem isIgnored (h : tight.Tightens loose) (hp : tight.isIgnored p = false) :
    loose.isIgnored p = false := by
  unfold PathFilter.isIgnored at hp ⊢
  rw [List.any_eq_false] at hp ⊢
  intro n hn
  rw [← h.root_eq] at hn
  rw [h.ignoresName (Bool.eq_false_iff.mpr (hp n hn))]
  exact Bool.false_ne_true

theorem admits (h : tight.Tightens loose) {e : Entry} (he : tight.admits p e = true) :
    loose.admits p e = true := by
  unfold PathFilter.admits at he ⊢
  rw [Bool.and_eq_true, Bool.and_eq_true, Bool.not_eq_true'] at he ⊢
  obtain ⟨⟨hignored, hlanguage⟩, hsize⟩ := he
  refine ⟨⟨h.isIgnored hignored, hlanguage⟩, ?_⟩
  cases hstatus : FileSystem.statusOf e with
  | directory =>
    rw [hstatus] at hsize
    cases hsize
  | file size =>
    -- the limit itself is still allowed, by both
    rw [hstatus, decide_eq_true_eq] at hsize
    exact decide_eq_true (hsize.trans h.size_le)

/-- **What the stricter filter lets through, the looser one lets through.** -/
theorem isEligible (h : tight.Tightens loose) (hp : tight.isEligible fs p = true) :
    loose.isEligible fs p = true := by
  obtain ⟨e, hlookup, hadmits⟩ := exists_of_isEligible hp
  rw [isEligible_eq, hlookup]
  exact h.admits hadmits

end Tightens

end PathFilter

/-! ### Walks that are cut off earlier -/

namespace FileSystem

variable {fs : FileSystem} {tight loose : PathFilter} {p : Path}

/-- **A path that the stricter filter does not ignore is listed by both walks or by neither.** -/
theorem mem_walk_iff_of_tightens (hfs : fs.WellFormed) (h : tight.Tightens loose)
    (hp : tight.isIgnored p = false) :
    p ∈ fs.walk tight.isIgnored tight.root ↔ p ∈ fs.walk loose.isIgnored loose.root := by
  constructor
  · intro hmem
    have hinput := isStandardInput_of_mem_walk hmem
    obtain ⟨l, rfl, hfile, hreached⟩ := (mem_walk hfs hinput p).mp hmem
    have hnames := hfile.isName hfs
    have hkept := (PathFilter.reachedBelow_isIgnored hnames).mp hreached
    rw [h.root_eq] at hinput hfile ⊢
    refine (mem_walk hfs hinput _).mpr ⟨l, rfl, hfile, ?_⟩
    exact (PathFilter.reachedBelow_isIgnored hnames).mpr fun n hn => h.ignoresName (hkept n hn)
  · intro hmem
    have hinput := isStandardInput_of_mem_walk hmem
    obtain ⟨l, rfl, hfile, -⟩ := (mem_walk hfs hinput p).mp hmem
    have hnames := hfile.isName hfs
    rw [← h.root_eq] at hinput hfile hp ⊢
    refine (mem_walk hfs hinput _).mpr ⟨l, rfl, hfile, ?_⟩
    rw [PathFilter.reachedBelow_isIgnored hnames]
    rw [PathFilter.isIgnored_descend hnames, List.any_eq_false] at hp
    exact fun n hn => Bool.eq_false_iff.mpr (hp n hn)

end FileSystem

/-! ### Scanners -/

namespace Scanner

/-- **The chunks of a scan with the paths they come from**, in the order of the scan. -/
def origins (s : Scanner) (fs : FileSystem) : List (Path × Chunk) :=
  (s.expectedPaths fs).flatMap fun p => (s.expectedChunks fs p).map (p, ·)

theorem map_snd_origins (s : Scanner) (fs : FileSystem) :
    (s.origins fs).map Prod.snd = ChunkStream.supply fs s.scope (s.expectedPaths fs) := by
  rw [supply_scope, origins, List.map_flatMap]
  congr 1
  funext p
  rw [List.map_map]
  exact List.map_id _

/-- **A scanner is at least as strict as another one** of the same repository. -/
structure Tightens (tight loose : Scanner) : Prop where
  filter : tight.filter.Tightens loose.filter
  root_eq : tight.options.root = loose.options.root
  filter_root : tight.filter.root = tight.options.root
  useTracked_eq : tight.options.useTracked = loose.options.useTracked
  chunker_eq : tight.options.chunker = loose.options.chunker
  tracked_eq : tight.tracked = loose.tracked

namespace Tightens

variable {tight loose : Scanner} {fs : FileSystem}

/-- **A file keeps all its chunks or none.** -/
theorem expectedChunks (h : tight.Tightens loose) (p : Path) :
    tight.expectedChunks fs p
      = if tight.filter.isEligible fs p then loose.expectedChunks fs p else [] := by
  cases heligible : tight.filter.isEligible fs p with
  | false =>
    rw [expectedChunks_of_not_isEligible heligible]
    rfl
  | true =>
    rw [if_pos rfl, Scanner.expectedChunks, Scanner.expectedChunks, heligible,
      h.filter.isEligible heligible, h.chunker_eq, h.root_eq]

/-- **The candidates of both scans give the same**, where a path that the stricter filter
ignores has nothing to give. -/
theorem flatMap_expectedPaths (h : tight.Tightens loose) (hfs : fs.WellFormed) {β : Type}
    {g : Path → List β} (hg : ∀ p, g p ≠ [] → tight.filter.isIgnored p = false) :
    (tight.expectedPaths fs).flatMap g = (loose.expectedPaths fs).flatMap g := by
  -- both walks are sorted alike, so it is enough to compare what they list
  have hwalks : (fs.walk tight.filter.isIgnored tight.options.root).flatMap g
      = (fs.walk loose.filter.isIgnored loose.options.root).flatMap g := by
    rw [← h.root_eq, ← h.filter_root]
    refine flatMap_eq_of_pairwise (FileSystem.pairwise_walk _ hfs _)
      (FileSystem.pairwise_walk _ hfs _) fun p hp => ?_
    rw [FileSystem.mem_walk_iff_of_tightens hfs h.filter (hg p hp), h.filter.root_eq]
  unfold expectedPaths
  rw [h.useTracked_eq, h.tracked_eq]
  rw [h.root_eq] at hwalks ⊢
  cases loose.options.useTracked with
  | false => exact hwalks
  | true =>
    rcases (loose.tracked fs loose.options.root).answer with e | (_ | paths)
    · exact hwalks
    · exact hwalks
    · rfl

/-- **The stricter scan gives what the looser one gives of the files that are still eligible.** -/
theorem origins_eq_filter (h : tight.Tightens loose) (hfs : fs.WellFormed) :
    tight.origins fs
      = (loose.origins fs).filter fun origin => tight.filter.isEligible fs origin.1 := by
  have hkept : ∀ p, (tight.expectedChunks fs p).map (p, ·)
      = ((loose.expectedChunks fs p).map (p, ·)).filter
          fun origin => tight.filter.isEligible fs origin.1 := by
    intro p
    rw [h.expectedChunks]
    cases heligible : tight.filter.isEligible fs p with
    | true =>
      rw [if_pos rfl, eq_comm, List.filter_eq_self]
      intro origin horigin
      obtain ⟨c, -, rfl⟩ := List.mem_map.mp horigin
      exact heligible
    | false =>
      rw [if_neg Bool.false_ne_true, List.map_nil, eq_comm, List.filter_eq_nil_iff]
      intro origin horigin
      obtain ⟨c, -, rfl⟩ := List.mem_map.mp horigin
      rw [heligible]
      exact Bool.false_ne_true
  have hgives : ∀ p, (tight.expectedChunks fs p).map (p, ·) ≠ [] →
      tight.filter.isIgnored p = false := by
    intro p hp
    have heligible : tight.filter.isEligible fs p = true := by
      by_contra hnot
      rw [expectedChunks_of_not_isEligible (Bool.eq_false_iff.mpr hnot)] at hp
      exact hp rfl
    exact PathFilter.isIgnored_of_isEligible heligible
  rw [origins, h.flatMap_expectedPaths hfs hgives, origins, List.filter_flatMap]
  congr 1
  funext p
  exact hkept p

theorem of_accepted {o o' : ScanOptions} (hroot : o.root = o'.root)
    (htracked : o.useTracked = o'.useTracked) (hchunker : o.chunker = o'.chunker)
    (hignore : o'.ignore ⊆ o.ignore) (hsize : o.maxFileSize ≤ o'.maxFileSize)
    (h : ofOptions fs o = .ok tight) (h' : ofOptions fs o' = .ok loose)
    (tracked : Tracked.Provider) : Tightens { tight with tracked } { loose with tracked } := by
  obtain ⟨hoptions, -, hfilter⟩ := ofOptions_eq_ok h
  obtain ⟨hoptions', -, hfilter'⟩ := ofOptions_eq_ok h'
  obtain ⟨hfilterRoot, hpatterns, hmax⟩ := PathFilter.ofPatterns_eq_ok_iff.mp hfilter
  obtain ⟨hfilterRoot', hpatterns', hmax'⟩ := PathFilter.ofPatterns_eq_ok_iff.mp hfilter'
  refine ⟨⟨?_, ?_, ?_⟩, ?_, ?_, ?_, ?_, rfl⟩
  · rw [hfilterRoot, hfilterRoot', hroot]
  · exact IgnorePattern.withDefaults_subset hignore hpatterns hpatterns'
  · rw [hmax, hmax']
    exact hsize
  · rw [hoptions, hoptions', hroot]
  · rw [hfilterRoot, hoptions]
  · rw [hoptions, hoptions', htracked]
  · rw [hoptions, hoptions', hchunker]

end Tightens

/-- **Stricter options only remove whole files.**  Of two scans of the same repository, the one with
more ignore patterns and a smaller limit hands out exactly the chunks of the other one that come
from paths that are still eligible, unchanged and in order; and each path that is still eligible has
the chunks that it had. -/
theorem scan_of_tightened {fs : FileSystem} (hfs : fs.WellFormed) {o o' : ScanOptions}
    (hroot : o.root = o'.root) (huse : o.useTracked = o'.useTracked)
    (hchunker : o.chunker = o'.chunker) (hignore : o'.ignore ⊆ o.ignore)
    (hsize : o.maxFileSize ≤ o'.maxFileSize) {tight loose : Scanner}
    (htight : ofOptions fs o = .ok tight) (hloose : ofOptions fs o' = .ok loose)
    (tracked : Tracked.Provider) :
    ∃ stream log stream' log', { tight with tracked }.scan fs = .ok (stream, log) ∧
      { loose with tracked }.scan fs = .ok (stream', log') ∧
      (stream.rest fs).chunks = ({ tight with tracked }.origins fs).map Prod.snd ∧
      (stream'.rest fs).chunks = ({ loose with tracked }.origins fs).map Prod.snd ∧
      { tight with tracked }.origins fs = ({ loose with tracked }.origins fs).filter
        (fun origin => tight.filter.isEligible fs origin.1) ∧
      ∀ p, tight.expectedChunks fs p
        = if tight.filter.isEligible fs p then loose.expectedChunks fs p else [] := by
  have htightens := Tightens.of_accepted hroot huse hchunker hignore hsize htight hloose tracked
  obtain ⟨source, log, hscan⟩ := scan_of_accepted htight tracked fs
  obtain ⟨source', log', hscan'⟩ := scan_of_accepted hloose tracked fs
  refine ⟨_, log, _, log', hscan, hscan', ?_, ?_, htightens.origins_eq_filter hfs,
    htightens.expectedChunks⟩
  · rw [(ChunkStream.rest_spec fs _).1, map_snd_origins]
    rfl
  · rw [(ChunkStream.rest_spec fs _).1, map_snd_origins]
    rfl

/-- A repository with files of 20 and of 21 bytes, and one in a directory of its own. -/
def measuredRepository : FileSystem where
  top := .cons (Bytes.encode "repo") (.directory
    (.cons (Bytes.encode "src") (.directory
      (.cons (Bytes.encode "b.py") (.file (Bytes.encode "def gggg():\n    pass\n"))
      (.cons (Bytes.encode "a.py") (.file (Bytes.encode "def fff():\n    pass\n")) .nil)))
    (.cons (Bytes.encode "gen1") (.directory
      (.cons (Bytes.encode "c.py") (.file (Bytes.encode "x = 1\n")) .nil)) .nil))) .nil

/-- Options that let all three files through. -/
def measuredOptions : ScanOptions where
  root := Path.ofString "repo"
  ignore := ["*.tmp"]
  useTracked := false

/-- Stricter options, with a limit that one of the files just meets. -/
def strictOptions : ScanOptions :=
  { measuredOptions with ignore := ["gen?", "*.tmp"], maxFileSize := 20 }

/-- The files of the repository. -/
def measuredFiles : List Path :=
  ["gen1/c.py", "src/a.py", "src/b.py"].map
    fun text => measuredOptions.root.join (Path.ofString text)

/-- One file is left of three: the others are ignored, or a byte too large. -/
theorem scan_of_tightened_measuredRepository :
    measuredRepository.WellFormed ∧ measuredOptions.ignore ⊆ strictOptions.ignore ∧
    strictOptions.maxFileSize ≤ measuredOptions.maxFileSize ∧
    ∃ tight loose stream log stream' log',
      ofOptions measuredRepository strictOptions = .ok tight ∧
      ofOptions measuredRepository measuredOptions = .ok loose ∧
      measuredFiles.map (tight.filter.isEligible measuredRepository) = [false, true, false] ∧
      measuredFiles.map (loose.filter.isEligible measuredRepository) = [true, true, true] ∧
      tight.scan measuredRepository = .ok (stream, log) ∧
      loose.scan measuredRepository = .ok (stream', log') ∧
      (stream.rest measuredRepository).chunks
        = (tight.origins measuredRepository).map Prod.snd ∧
      (stream'.rest measuredRepository).chunks
        = (loose.origins measuredRepository).map Prod.snd ∧
      tight.origins measuredRepository = (loose.origins measuredRepository).filter
        (fun origin => tight.filter.isEligible measuredRepository origin.1) := by
  have hfs : measuredRepository.WellFormed := by decide
  have hignore : measuredOptions.ignore ⊆ strictOptions.ignore := by decide
  have hsize : strictOptions.maxFileSize ≤ measuredOptions.maxFileSize := by decide
  obtain ⟨tight, htight, hleft⟩ : ∃ tight, ofOptions measuredRepository strictOptions = .ok tight ∧
      measuredFiles.map (tight.filter.isEligible measuredRepository) = [false, true, false] :=
    ⟨_, rfl, by decide +kernel⟩
  obtain ⟨loose, hloose, hall⟩ : ∃ loose,
      ofOptions measuredRepository measuredOptions = .ok loose ∧
      measuredFiles.map (loose.filter.isEligible measuredRepository) = [true, true, true] :=
    ⟨_, rfl, by decide +kernel⟩
  have hroot : strictOptions.root = measuredOptions.root := rfl
  have hsame : { loose with tracked := tight.tracked } = loose := by
    rw [tracked_of_ofOptions htight, ← tracked_of_ofOptions hloose]
  obtain ⟨stream, log, stream', log', hscan, hscan', hchunks, hchunks', horigins, -⟩ :=
    scan_of_tightened hfs hroot rfl rfl hignore hsize htight hloose tight.tracked
  rw [hsame] at hscan' hchunks' horigins
  exact ⟨hfs, hignore, hsize, tight, loose, stream, log, stream', log', htight, hloose, hleft, hall,
    hscan, hscan', hchunks, hchunks', horigins⟩

end Scanner

end SourceChunks
