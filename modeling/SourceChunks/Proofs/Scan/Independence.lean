import SourceChunks.Proofs.Files.Outlines
import SourceChunks.Proofs.Scan.Placement

/-!
# Files do not influence each other

A scan decides which paths it reads from the outlines of the tree alone
(`PathFilter.judge_of_alike`, `Scanner.expectedPaths_of_alike`).  What it reports on a path is
decided by what reading that path gives, and only if the path is eligible
(`FileReport.ofPath_of_alike`).  A stream passes nothing on from file to file but counters, so in
two trees that show alike it takes the same steps as long as the paths it looks at read alike
(`ChunkStream.SameReports.next_eq`).  Hence what is not eligible may hold anything, and a file that
changes changes its own chunks only (`Scanner.scan_of_alike`).
-/

namespace SourceChunks

open FileSystem

variable {fs fs' : FileSystem} {p : Path}

/-! ### Reports -/

namespace PathFilter

/-- What the filter makes of an outline. -/
def weigh : Outline → Verdict
  | .regular none | .outside none | .link _ => .eligible
  | .regular (some size) | .outside (some size) => .tooLarge size
  | .directory => .notAFile

/-- An outline tells a filter what the status tells it. -/
theorem weigh_outline (limit : Nat) (e : Entry) :
    weigh (e.outline limit) = match statusOf e with
      | .directory => .notAFile
      | .file size => if size > limit then .tooLarge size else .eligible := by
  have hexcess : ∀ size, weigh (.regular (Outline.excessOf limit size))
        = (if size > limit then .tooLarge size else .eligible) ∧
      weigh (.outside (Outline.excessOf limit size))
        = (if size > limit then .tooLarge size else .eligible) := by
    intro size
    unfold Outline.excessOf
    split_ifs
    · exact ⟨rfl, rfl⟩
    · exact ⟨rfl, rfl⟩
  rcases e with contents | ⟨size, refusal⟩ | target | (err | contents) | entries | d
  · exact (hexcess contents.length).1
  · exact (hexcess size).1
  · rfl
  · exact (hexcess 0).2
  · exact (hexcess contents.length).2
  · exact (hexcess 0).1
  · rfl

/-- **A filter sees no more of an entry than its outline.** -/
theorem judge_eq (f : PathFilter) (fs : FileSystem) (p : Path) :
    f.judge fs p = if f.isIgnored p then .ignored
      else if (Registry.builtin.resolve? p).isNone then .noLanguage
      else match fs.lookup p with
        | .error err => .unknown err
        | .ok e => weigh (e.outline f.maxFileSize) := by
  rw [judge, status]
  cases fs.lookup p with
  | error err => rfl
  | ok e =>
    simp only [weigh_outline, Except.map]
    cases statusOf e with
    | directory => rfl
    | file size => rfl

theorem judge_of_alike {f : PathFilter} (h : Alike f.maxFileSize fs fs') (p : Path) :
    f.judge fs' p = f.judge fs p := by
  rw [judge_eq, judge_eq]
  obtain ⟨err, hlookup, hlookup'⟩ | ⟨e, e', hlookup, hlookup', houtline⟩ := h.lookup_cases p
  · rw [hlookup, hlookup']
  · rw [hlookup, hlookup']
    dsimp only
    rw [houtline]

theorem isEligible_of_alike {f : PathFilter} (h : Alike f.maxFileSize fs fs') (p : Path) :
    f.isEligible fs' p = f.isEligible fs p := by
  rw [isEligible, isEligible, judge_of_alike h]

end PathFilter

/-- **The report on a path depends on what it reads as**, and on that only if it is eligible. -/
theorem FileReport.ofPath_of_alike {scope : ScanScope} (h : Alike scope.filter.maxFileSize fs fs')
    (hread : scope.filter.isEligible fs p = true → fs'.read p = fs.read p) :
    ofPath fs' scope p = ofPath fs scope p := by
  rw [ofPath, ofPath, PathFilter.judge_of_alike h]
  cases hjudge : scope.filter.judge fs p with
  | eligible =>
    have heligible : scope.filter.isEligible fs p = true := by
      rw [PathFilter.isEligible, hjudge]
      rfl
    rw [hread heligible]
  | ignored => rfl
  | noLanguage => rfl
  | unknown err => rfl
  | notAFile => rfl
  | tooLarge size => rfl

/-! ### Streams -/

namespace ChunkStream

variable {s : ChunkStream}

theorem advance_of_reports {scope : ScanScope} {paths : List Path}
    (h : ∀ p ∈ paths, FileReport.ofPath fs' scope p = FileReport.ofPath fs scope p)
    (stats : ScanStats) : advance fs' scope stats paths = advance fs scope stats paths := by
  induction paths generalizing stats with
  | nil => rfl
  | cons p rest ih =>
    rw [List.forall_mem_cons] at h
    simp only [advance, h.1, ih h.2]

/-- **The paths that are left in a stream are reported on alike** in two trees. -/
def SameReports (fs fs' : FileSystem) (s : ChunkStream) : Prop :=
  ∀ p ∈ s.paths, FileReport.ofPath fs' s.scope p = FileReport.ofPath fs s.scope p

/-- One pull does the same in both trees. -/
theorem SameReports.next_eq (h : s.SameReports fs fs') : s.next fs' = s.next fs := by
  have hrefill : s.refill fs' = s.refill fs := by
    unfold refill
    split
    · rw [advance_of_reports h]
    · rfl
  rw [next, next, hrefill]

theorem SameReports.next (h : s.SameReports fs fs') : (s.next fs).stream.SameReports fs fs' := by
  intro p hp
  rw [scope_next]
  apply h
  rw [← looked_append fs s]
  exact List.mem_append_right _ hp

/-- **Any number of pulls do the same in both trees.** -/
theorem SameReports.pulls_eq (h : s.SameReports fs fs') (k : Nat) :
    s.pulls fs' k = s.pulls fs k := by
  induction k generalizing s with
  | zero => rfl
  | succ k ih =>
    rw [pulls, pulls, h.next_eq, ih h.next]

theorem SameReports.rest_eq (h : s.SameReports fs fs') : s.rest fs' = s.rest fs := by
  fun_induction rest fs s with
  | case1 s after log hend =>
    rw [rest]
    split
    · rename_i hend'
      rw [h.next_eq, hend] at hend'
      obtain ⟨-, rfl, -⟩ := Pull.mk.inj hend'
      rfl
    · rename_i hpull
      rw [h.next_eq, hend] at hpull
      cases hpull
  | case2 s c after log hpull later ih =>
    have hafter := h.next
    rw [hpull] at hafter
    rw [rest]
    split
    · rename_i hend
      rw [h.next_eq, hpull] at hend
      cases hend
    · rename_i hpull'
      rw [h.next_eq, hpull] at hpull'
      obtain ⟨hc, rfl, -⟩ := Pull.mk.inj hpull'
      obtain rfl := Option.some.inj hc
      dsimp only
      rw [ih hafter]

end ChunkStream

/-! ### Scans -/

/-- **Two trees that cannot be told apart by a scan before it reads**: they show alike, and the same
paths are tracked if tracked paths are asked for. -/
structure ScanOptions.SeesAlike (o : ScanOptions) (tracked : Tracked.Provider)
    (fs fs' : FileSystem) : Prop where
  wellFormed : fs.WellFormed
  wellFormed' : fs'.WellFormed
  alike : Alike o.maxFileSize fs fs'
  answer_eq : o.useTracked = true → (tracked fs' o.root).answer = (tracked fs o.root).answer

namespace Scanner

variable {s : Scanner} {o : ScanOptions} {tracked : Tracked.Provider}

/-- **A path reads alike** in two trees, if it is read at all. -/
def ReadsAlike (s : Scanner) (fs fs' : FileSystem) (p : Path) : Prop :=
  s.filter.isEligible fs p = true → fs'.read p = fs.read p

theorem ofOptions_of_alike {limit : Nat} (h : Alike limit fs fs') (o : ScanOptions) :
    ofOptions fs' o = ofOptions fs o := by
  have hproblem : o.problem? fs' = o.problem? fs := by
    rw [ScanOptions.problem?, ScanOptions.problem?, h.isDirectory_eq]
  rw [ofOptions, ofOptions, h.isDirectory_eq, hproblem]

/-- **The same paths are candidates** in two trees that a scan cannot tell apart before it reads. -/
theorem candidates_of_alike (h : o.SeesAlike tracked fs fs') (hoptions : s.options = o)
    (htracked : s.tracked = tracked) :
    (s.candidates fs').source = (s.candidates fs).source ∧
      (s.candidates fs').paths = (s.candidates fs).paths := by
  have htraversal : s.traversal fs' = s.traversal fs :=
    h.alike.walk_eq h.wellFormed h.wellFormed' s.filter.isIgnored s.options.root
  unfold candidates
  dsimp only
  rw [hoptions, htracked, htraversal]
  cases huse : o.useTracked with
  | false => exact ⟨rfl, rfl⟩
  | true =>
    rw [h.answer_eq huse]
    rcases (tracked fs o.root).answer with err | (_ | paths) <;> exact ⟨rfl, rfl⟩

/-- A path that occurs once, and the paths before and after it. -/
theorem exists_around_of_count {paths : List Path} (h : paths.count p = 1) :
    ∃ before after, paths = before ++ p :: after ∧ p ∉ before ∧ p ∉ after := by
  have hmem : p ∈ paths := List.count_pos_iff.mp (by omega)
  obtain ⟨before, after, rfl, hbefore⟩ := List.eq_append_cons_of_mem hmem
  rw [List.count_append, List.count_cons_self, List.count_eq_zero.mpr hbefore] at h
  exact ⟨before, after, rfl, hbefore, List.count_eq_zero.mp (by omega)⟩

/-- **The chunks of a scan, cut at one path**: `a` are those of the paths before it, `b` those of
the paths after it, and what stands between them carries the path. -/
structure CutsAt (s : Scanner) (fs : FileSystem) (before : List Path) (p : Path) (after : List Path)
    (a b chunks : List Chunk) : Prop where
  chunks_eq : chunks = a ++ s.expectedChunks fs p ++ b
  before_eq : before.flatMap (s.expectedChunks fs) = a
  after_eq : after.flatMap (s.expectedChunks fs) = b
  filepath_eq : ∀ c ∈ s.expectedChunks fs p, c.filepath = Path.relativeTo s.options.root p

theorem cutsAt_rest (s : Scanner) (fs : FileSystem) (source : PathSource) (before : List Path)
    (p : Path) (after : List Path) :
    s.CutsAt fs before p after (before.flatMap (s.expectedChunks fs))
      (after.flatMap (s.expectedChunks fs))
      (ChunkStream.rest fs { scope := s.scope, source, paths := before ++ p :: after }).chunks where
  chunks_eq := by
    rw [(ChunkStream.rest_spec fs _).1, List.nil_append, supply_scope, List.flatMap_append,
      List.flatMap_cons, List.append_assoc]
  before_eq := rfl
  after_eq := rfl
  filepath_eq _ := filepath_of_mem_expectedChunks

/-- **A change at one path changes the chunks of that path only**, if it is looked at once. -/
theorem exists_cutsAt (s : Scanner) (source : PathSource) {paths : List Path}
    (hcount : paths.count p = 1)
    (hreport : ∀ q ∈ paths, q ≠ p →
      FileReport.ofPath fs' s.scope q = FileReport.ofPath fs s.scope q) :
    ∃ before after a b, paths = before ++ p :: after ∧
      s.CutsAt fs before p after a b
        (ChunkStream.rest fs { scope := s.scope, source, paths }).chunks ∧
      s.CutsAt fs' before p after a b
        (ChunkStream.rest fs' { scope := s.scope, source, paths }).chunks := by
  obtain ⟨before, after, rfl, hbefore, hafter⟩ := exists_around_of_count hcount
  have hothers : ∀ others : List Path, p ∉ others → others ⊆ before ++ p :: after →
      others.flatMap (s.expectedChunks fs') = others.flatMap (s.expectedChunks fs) := by
    intro others hnot hsub
    rw [List.flatMap_def, List.flatMap_def]
    congr 1
    refine List.map_congr_left fun q hq => ?_
    have hne : q ≠ p := fun heq => hnot (heq ▸ hq)
    rw [← chunks_ofPath, ← chunks_ofPath, hreport q (hsub hq) hne]
  have hcuts := cutsAt_rest s fs source before p after
  have hcuts' := cutsAt_rest s fs' source before p after
  have hback : after ⊆ before ++ p :: after := fun q hq => by simp [hq]
  rw [hothers before hbefore (List.subset_append_left _ _), hothers after hafter hback] at hcuts'
  exact ⟨before, after, _, _, rfl, hcuts, hcuts'⟩

/-- **Files do not influence each other, and rejected files are not read.**  Two trees that cannot
be told apart before anything is read give the same scanner, whatever the options.  The same paths
are candidates in both, and the same ones are eligible.  If all eligible candidates read alike, the
scans do the same pull by pull, log and counters included, whatever other files hold.  If all do but
one candidate that occurs once, the chunks of the scans differ in those of that path only. -/
theorem scan_of_alike (h : o.SeesAlike tracked fs fs') :
    ofOptions fs' o = ofOptions fs o ∧ ∀ checked, ofOptions fs o = .ok checked →
      ∃ s stream log log', s = { checked with tracked } ∧
        s.scan fs = .ok (stream, log) ∧ s.scan fs' = .ok (stream, log') ∧
        stream.paths = s.expectedPaths fs ∧
        (∀ p, s.filter.isEligible fs' p = s.filter.isEligible fs p) ∧
        ((∀ p ∈ stream.paths, s.ReadsAlike fs fs' p) →
          (∀ k, stream.pulls fs' k = stream.pulls fs k) ∧ stream.rest fs' = stream.rest fs) ∧
        (∀ p, stream.paths.count p = 1 →
          (∀ q ∈ stream.paths, q ≠ p → s.ReadsAlike fs fs' q) →
          ∃ before after a b, stream.paths = before ++ p :: after ∧
            s.CutsAt fs before p after a b (stream.rest fs).chunks ∧
            s.CutsAt fs' before p after a b (stream.rest fs').chunks) := by
  refine ⟨ofOptions_of_alike h.alike o, fun checked haccepted => ?_⟩
  obtain ⟨hoptions, hproblem, hfilter⟩ := ofOptions_eq_ok haccepted
  set s : Scanner := { checked with tracked }
  have halike : Alike s.scope.filter.maxFileSize fs fs' := by
    have hlimit : s.scope.filter.maxFileSize = o.maxFileSize :=
      (PathFilter.ofPatterns_eq_ok_iff.mp hfilter).2.2
    rw [hlimit]
    exact h.alike
  obtain ⟨hsource, hpaths⟩ := candidates_of_alike (s := s) h hoptions rfl
  have hscan : ∀ now, s.scan now = .ok
      (⟨s.scope, (s.candidates now).source, (s.candidates now).paths, [], {}⟩,
        (s.candidates now).log) := by
    intro now
    have hchunker : s.options.chunker.problem? = none := by
      rw [show s.options = o from hoptions]
      exact problem?_chunker hproblem
    rw [scan, hchunker]
  have hreport : ∀ q, s.ReadsAlike fs fs' q →
      FileReport.ofPath fs' s.scope q = FileReport.ofPath fs s.scope q :=
    fun q hq => FileReport.ofPath_of_alike halike hq
  refine ⟨s, _, _, (s.candidates fs').log, rfl, hscan fs, ?_, paths_candidates s fs,
    PathFilter.isEligible_of_alike halike, fun hreads => ?_, fun p hcount hreads => ?_⟩
  · rw [hscan fs', hsource, hpaths]
  · have hsame : ChunkStream.SameReports fs fs'
        ⟨s.scope, (s.candidates fs).source, (s.candidates fs).paths, [], {}⟩ :=
      fun q hq => hreport q (hreads q hq)
    exact ⟨hsame.pulls_eq, hsame.rest_eq⟩
  · exact exists_cutsAt s _ hcount fun q hq hne => hreport q (hreads q hq hne)

/-- A repository with two source files, a large one, one that is ignored, and one of no language. -/
def crowdedRepository (source large product notes : String) : FileSystem where
  top := .cons (Bytes.encode "repo") (.directory
    (.cons (Bytes.encode "a.py") (.file (Bytes.encode "x = 1\n"))
    (.cons (Bytes.encode "b.py") (.file (Bytes.encode source))
    (.cons (Bytes.encode "c.py") (.file (Bytes.encode large))
    (.cons (Bytes.encode "build")
      (.directory (.cons (Bytes.encode "d.py") (.file (Bytes.encode product)) .nil))
    (.cons (Bytes.encode "notes.md") (.file (Bytes.encode notes)) .nil)))))) .nil

/-- A scan of files with up to twenty bytes. -/
def crowdedOptions : ScanOptions where
  root := Path.ofString "repo"
  maxFileSize := 20

/-- All files of the repository, as a fixed list of tracked paths. -/
def crowdedTracked : Tracked.Provider :=
  Tracked.ofList (["a.py", "b.py", "c.py", "build/d.py", "notes.md"].map Path.ofString)

/-- The repository before a change. -/
def crowdedBefore : FileSystem :=
  crowdedRepository "y = 1\n" "# more than twenty bytes" "z = 1\n" "# notes"

theorem expectedPaths_crowdedBefore {checked : Scanner}
    (haccepted : ofOptions crowdedBefore crowdedOptions = .ok checked) :
    { checked with tracked := crowdedTracked }.expectedPaths crowdedBefore
      = ["repo/a.py", "repo/b.py", "repo/c.py", "repo/build/d.py", "repo/notes.md"].map
        Path.ofString := by
  rw [expectedPaths, (ofOptions_eq_ok haccepted).1]
  rfl

section Crowded

variable {source large product notes : String}

theorem seesAlike_crowdedRepository
    (hfs : (crowdedRepository source large product notes).WellFormed)
    (houtlines : ["y = 1\n", "# more than twenty bytes", "z = 1\n", "# notes"].map
        (fun text => (Entry.file (Bytes.encode text)).outline 20)
      = [source, large, product, notes].map
        fun text => (Entry.file (Bytes.encode text)).outline 20) :
    crowdedOptions.SeesAlike crowdedTracked crowdedBefore
      (crowdedRepository source large product notes) where
  wellFormed := by decide +kernel
  wellFormed' := hfs
  alike := by
    simp only [List.map_cons, List.map_nil, List.cons.injEq, and_true] at houtlines
    obtain ⟨hsource, hlarge, hproduct, hnotes⟩ := houtlines
    have hnil := Entry.alike_refl 20 (.directory .nil)
    have hproducts := Entry.alike_cons (n := Bytes.encode "d.py")
      (Entry.alike_of_outline rfl rfl hproduct.symm) hnil
    refine ⟨Entry.alike_cons ?_ hnil, rfl⟩
    refine Entry.alike_cons (Entry.alike_refl 20 _) ?_
    refine Entry.alike_cons (Entry.alike_of_outline rfl rfl hsource.symm) ?_
    refine Entry.alike_cons (Entry.alike_of_outline rfl rfl hlarge.symm) ?_
    refine Entry.alike_cons hproducts ?_
    exact Entry.alike_cons (Entry.alike_of_outline rfl rfl hnotes.symm) hnil
  answer_eq _ := rfl

/-- Only the two source files are eligible, and one of them is the same in all such repositories. -/
theorem readsAlike_crowdedRepository {checked : Scanner}
    (haccepted : ofOptions crowdedBefore crowdedOptions = .ok checked) {q : Path}
    (hq : q ∈ { checked with tracked := crowdedTracked }.expectedPaths crowdedBefore)
    (hne : q ≠ Path.ofString "repo/b.py") :
    { checked with tracked := crowdedTracked }.ReadsAlike crowdedBefore
      (crowdedRepository source large product notes) q := by
  have heligible : (ofOptions crowdedBefore crowdedOptions).toOption.map (fun checked =>
      ["repo/c.py", "repo/build/d.py", "repo/notes.md"].map fun text =>
        checked.filter.isEligible crowdedBefore (Path.ofString text))
      = some [false, false, false] := by decide +kernel
  rw [haccepted] at heligible
  have hrejected := Option.some.inj heligible
  simp only [List.map_cons, List.map_nil, List.cons.injEq, and_true] at hrejected
  rw [expectedPaths_crowdedBefore haccepted] at hq
  simp only [List.map_cons, List.map_nil, List.mem_cons, List.not_mem_nil, or_false] at hq
  intro hq'
  rcases hq with rfl | rfl | rfl | rfl | rfl
  · rfl
  · exact absurd rfl hne
  · exact absurd (hq'.symm.trans hrejected.1) (by decide)
  · exact absurd (hq'.symm.trans hrejected.2.1) (by decide)
  · exact absurd (hq'.symm.trans hrejected.2.2) (by decide)

end Crowded

/-- The repository after a change to files that are not eligible. -/
def crowdedElsewhere : FileSystem :=
  crowdedRepository "y = 1\n" "$ more than twenty bytes" "def d(): pass\n" ""

/-- The repository after a change to an eligible file as well. -/
def crowdedAfter : FileSystem :=
  crowdedRepository "def b():\n    pass\n" "$ more than twenty bytes" "def d(): pass\n" ""

/-- The first change is not seen; of the second one, only what concerns `b.py` is. -/
theorem scan_of_alike_crowdedRepository :
    (crowdedOptions.SeesAlike crowdedTracked crowdedBefore crowdedElsewhere ∧
      ∃ (s : Scanner) (stream : ChunkStream) (log log' : List LogLine),
        s.scan crowdedBefore = .ok (stream, log) ∧
        s.scan crowdedElsewhere = .ok (stream, log') ∧
        stream.rest crowdedElsewhere = stream.rest crowdedBefore) ∧
    crowdedOptions.SeesAlike crowdedTracked crowdedBefore crowdedAfter ∧
      ∃ (s : Scanner) (stream : ChunkStream) (log log' : List LogLine) (before after : List Path)
        (a b : List Chunk), s.scan crowdedBefore = .ok (stream, log) ∧
        s.scan crowdedAfter = .ok (stream, log') ∧
        stream.paths = before ++ Path.ofString "repo/b.py" :: after ∧
        s.CutsAt crowdedBefore before (Path.ofString "repo/b.py") after a b
          (stream.rest crowdedBefore).chunks ∧
        s.CutsAt crowdedAfter before (Path.ofString "repo/b.py") after a b
          (stream.rest crowdedAfter).chunks := by
  have helsewhere : crowdedOptions.SeesAlike crowdedTracked crowdedBefore crowdedElsewhere := by
    unfold crowdedElsewhere
    exact seesAlike_crowdedRepository (by decide +kernel) (by decide +kernel)
  have hafter : crowdedOptions.SeesAlike crowdedTracked crowdedBefore crowdedAfter := by
    unfold crowdedAfter
    exact seesAlike_crowdedRepository (by decide +kernel) (by decide +kernel)
  obtain ⟨checked, haccepted⟩ : ∃ checked, ofOptions crowdedBefore crowdedOptions = .ok checked :=
    ⟨_, rfl⟩
  refine ⟨⟨helsewhere, ?_⟩, hafter, ?_⟩
  · obtain ⟨s, stream, log, log', rfl, hscan, hscan', hpaths, -, hsame, -⟩ :=
      (scan_of_alike helsewhere).2 checked haccepted
    refine ⟨_, stream, log, log', hscan, hscan', (hsame fun q hq => ?_).2⟩
    rw [hpaths] at hq
    by_cases hb : q = Path.ofString "repo/b.py"
    · intro _
      rw [hb]
      decide +kernel
    · exact readsAlike_crowdedRepository haccepted hq hb
  · obtain ⟨s, stream, log, log', rfl, hscan, hscan', hpaths, -, -, hcut⟩ :=
      (scan_of_alike hafter).2 checked haccepted
    have hcount : stream.paths.count (Path.ofString "repo/b.py") = 1 := by
      rw [hpaths, expectedPaths_crowdedBefore haccepted]
      decide +kernel
    have hreads : ∀ q ∈ stream.paths, q ≠ Path.ofString "repo/b.py" →
        { checked with tracked := crowdedTracked }.ReadsAlike crowdedBefore crowdedAfter q := by
      intro q hq hb
      rw [hpaths] at hq
      exact readsAlike_crowdedRepository haccepted hq hb
    obtain ⟨before, after, a, b, hsplit, hcuts⟩ := hcut _ hcount hreads
    exact ⟨_, stream, log, log', before, after, a, b, hscan, hscan', hsplit, hcuts⟩

end Scanner

end SourceChunks
