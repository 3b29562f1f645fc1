import SourceChunks.Proofs.Ignore
import SourceChunks.Proofs.Scan.Remaining
import SourceChunks.Proofs.Scan.TrackedPaths
import SourceChunks.Proofs.Scan.Undisturbed
import Mathlib.Data.List.Permutation
import Mathlib.Data.String.Basic

/-!
# Tracked paths and walks find the same

Two sources list the candidates of a repository in different orders, and each lists paths that the
other does not.  What they list both is all that counts (`ChunkStream.rest_of_sources`): a path that
is only tracked is skipped, and in the tree of a repository without links, an eligible tracked path
is one that a walk lists too.  Counters do not depend on the order of the paths
(`FileReport.count_comm`), except for the paths that were skipped.
-/

namespace SourceChunks

/-! ### Counting in another order -/

theorem Tally.update_comm_of_lt {a b : String} (hab : a < b) (f g : Nat → Nat) (t : Tally) :
    (t.update b g).update a f = (t.update a f).update b g := by
  have hne : a ≠ b := ne_of_lt hab
  have hnot : ¬b < a := lt_asymm hab
  induction t with
  | nil => simp [Tally.update, hne, hne.symm, hab, hnot]
  | cons entry rest ih =>
    obtain ⟨n, k⟩ := entry
    grind [Tally.update]

theorem Tally.bump_comm (t : Tally) (a b : String) : (t.bump b).bump a = (t.bump a).bump b := by
  rcases lt_trichotomy a b with hlt | heq | hgt
  · exact Tally.update_comm_of_lt hlt _ _ t
  · rw [heq]
  · exact (Tally.update_comm_of_lt hgt _ _ t).symm

/-- What a path can do to the counters. -/
theorem FileReport.count_cases (r : FileReport) :
    (∀ s, r.count s = s) ∨ (∀ s, r.count s = s.addSkipped) ∨ (∀ s, r.count s = s.addReadError) ∨
      ∃ language lines fallback, ∀ s, r.count s = s.addFile language lines fallback := by
  cases r with
  | skipped verdict => exact Or.inr (Or.inl fun s => rfl)
  | unreadable error => exact Or.inr (Or.inr (Or.inl fun s => rfl))
  | chunked name lines outcome =>
    cases hcs : outcome.chunks with
    | nil => exact Or.inl fun s => by rw [FileReport.count, hcs]
    | cons c cs =>
      refine Or.inr (Or.inr (Or.inr ⟨c.language, lines, isFallback (c :: cs), fun s => ?_⟩))
      rw [FileReport.count, hcs]

/-- **Two paths count the same in both orders.** -/
theorem FileReport.count_comm (r r' : FileReport) (stats : ScanStats) :
    r'.count (r.count stats) = r.count (r'.count stats) := by
  rcases r.count_cases with h | h | h | ⟨language, lines, fallback, h⟩ <;>
    rcases r'.count_cases with h' | h' | h' | ⟨language', lines', fallback', h'⟩ <;>
    simp only [h, h', ScanStats.addSkipped, ScanStats.addReadError, ScanStats.addFile,
      Nat.add_right_comm, Tally.bump_comm]

/-- Statistics without the number of skipped paths. -/
def ScanStats.unskipped (s : ScanStats) : ScanStats := { s with skipped := 0 }

/-- Paths skipped before make no difference to anything else. -/
theorem FileReport.unskipped_count {s s' : ScanStats} (r : FileReport)
    (h : s.unskipped = s'.unskipped) : (r.count s).unskipped = (r.count s').unskipped := by
  obtain ⟨files, chunks, fallbackFiles, skipped, totalLines, languages, readErrors⟩ := s
  obtain ⟨files', chunks', fallbackFiles', skipped', totalLines', languages', readErrors'⟩ := s'
  simp only [ScanStats.unskipped, ScanStats.mk.injEq, true_and] at h
  obtain ⟨rfl, rfl, rfl, rfl, rfl, rfl⟩ := h
  rcases r.count_cases with h | h | h | ⟨language, lines, fallback, h⟩ <;>
    simp only [h, ScanStats.unskipped, ScanStats.addSkipped, ScanStats.addReadError,
      ScanStats.addFile]

namespace ChunkStream

variable {fs : FileSystem} {scope : ScanScope} {ps qs : List Path} {keep : Path → Bool}

/-- **Counters do not depend on the order of the paths.** -/
theorem tally_perm (stats : ScanStats) (h : ps.Perm qs) :
    tally fs scope stats ps = tally fs scope stats qs := by
  have : RightCommutative fun st p => (FileReport.ofPath fs scope p).count st :=
    ⟨fun st p q => FileReport.count_comm _ _ st⟩
  exact h.foldl_eq stats

/-- Paths that are skipped count for nothing else. -/
theorem unskipped_tally_filter
    (h : ∀ p ∈ ps, keep p = false → ∃ v, FileReport.ofPath fs scope p = .skipped v)
    {stats stats' : ScanStats} (hstats : stats.unskipped = stats'.unskipped) :
    (tally fs scope stats ps).unskipped = (tally fs scope stats' (ps.filter keep)).unskipped := by
  induction ps generalizing stats stats' with
  | nil => exact hstats
  | cons p rest ih =>
    rw [List.forall_mem_cons] at h
    cases hkeep : keep p with
    | false =>
      obtain ⟨v, hv⟩ := h.1 hkeep
      rw [List.filter_cons_of_neg (by simp [hkeep])]
      refine ih h.2 ?_
      show ((FileReport.ofPath fs scope p).count stats).unskipped = _
      rw [hv, ← hstats]
      rfl
    | true =>
      rw [List.filter_cons_of_pos hkeep]
      exact ih h.2 (FileReport.unskipped_count _ hstats)

/-- Paths that are skipped give nothing. -/
theorem supply_filter
    (h : ∀ p ∈ ps, keep p = false → ∃ v, FileReport.ofPath fs scope p = .skipped v) :
    supply fs scope ps = supply fs scope (ps.filter keep) := by
  induction ps with
  | nil => rfl
  | cons p rest ih =>
    rw [List.forall_mem_cons] at h
    rw [supply_cons, ih h.2]
    cases hkeep : keep p with
    | false =>
      obtain ⟨v, hv⟩ := h.1 hkeep
      rw [List.filter_cons_of_neg (by simp [hkeep]), hv]
      rfl
    | true => rw [List.filter_cons_of_pos hkeep, supply_cons]

/-- **Two streams over the same files, one of which also has paths that are skipped**, come to the
same: the files in another order, each with its chunks in order, and the same counters. -/
theorem rest_of_sources (fs : FileSystem) (s s' : ChunkStream) (hps : s.pending = [])
    (hps' : s'.pending = []) (hstats : s.stats = {}) (hstats' : s'.stats = {})
    (hscope : s.scope = s'.scope) (hnodup : s.paths.Nodup) (hnodup' : s'.paths.Nodup)
    (hsubset : s'.paths ⊆ s.paths) (hskipped : ∀ p ∈ s.paths, p ∉ s'.paths →
      ∃ v, FileReport.ofPath fs s.scope p = .skipped v) :
    ∃ order : List Path, order.Perm s'.paths ∧
      (s.rest fs).chunks = supply fs s.scope order ∧
      (s'.rest fs).chunks = supply fs s.scope s'.paths ∧
      (s.rest fs).stream.stats.unskipped = (s'.rest fs).stream.stats.unskipped := by
  have hfiltered : ∀ p ∈ s.paths, decide (p ∈ s'.paths) = false →
      ∃ v, FileReport.ofPath fs s.scope p = .skipped v := fun p hp hnot =>
    hskipped p hp (of_decide_eq_false hnot)
  have hperm : (s.paths.filter (· ∈ s'.paths)).Perm s'.paths := by
    rw [List.perm_ext_iff_of_nodup (hnodup.filter _) hnodup']
    intro p
    rw [List.mem_filter, decide_eq_true_eq]
    exact ⟨fun h => h.2, fun h => ⟨hsubset h, h⟩⟩
  obtain ⟨hchunks, hafter⟩ := rest_spec fs s
  obtain ⟨hchunks', hafter'⟩ := rest_spec fs s'
  rw [hps, List.nil_append, supply_filter hfiltered] at hchunks hafter
  rw [hps', List.nil_append, ← hscope] at hchunks' hafter'
  refine ⟨s.paths.filter (· ∈ s'.paths), hperm, hchunks, hchunks', ?_⟩
  have hlength : (supply fs s.scope (s.paths.filter (· ∈ s'.paths))).length
      = (supply fs s.scope s'.paths).length := (hperm.flatMap_right _).length_eq
  have htally : (tally fs s.scope {} s.paths).unskipped
      = (tally fs s.scope {} s'.paths).unskipped := by
    rw [unskipped_tally_filter hfiltered rfl, tally_perm _ hperm]
  rw [hafter, hafter', hstats, hstats', hlength]
  exact congrArg (fun st : ScanStats =>
    { st with chunks := 0 + (supply fs s.scope s'.paths).length }) htally

end ChunkStream

/-! ### Repositories -/

/-- **A repository with an index**: its tree has no links, and its clean index lists at least the
files that a filter does not ignore. -/
structure Indexed (fs : FileSystem) (f : PathFilter) (entries : List TrackedEntry) : Prop where
  /-- The root leads to a directory without links. -/
  tree : ∃ d, fs.lookup f.root = .ok (.directory d) ∧ d.isPlain = true ∧
    ∃ g, d.find? Tracked.repositoryName = some (.directory g) ∧
      g.find? Tracked.indexName = some (.index (some entries))
  /-- The tracked paths are text and made of names. -/
  clean : ∀ e ∈ entries, e.IsClean
  /-- Every file without an ignored name is tracked. -/
  covers : ∀ l, fs.HasFileBelow f.root l → (∀ n ∈ l, f.ignoresName n = false) →
    ∃ e ∈ entries, splitAt Path.slash e.path = l

namespace Indexed

open FileSystem

variable {fs : FileSystem} {f : PathFilter} {entries : List TrackedEntry} {p : Path}

theorem answer_ofIndex (h : Indexed fs f entries) :
    (Tracked.ofIndex fs f.root).answer = .ok (some (Tracked.pathsOf entries)) := by
  obtain ⟨d, hroot, -, g, hg, hindex⟩ := h.tree
  obtain ⟨R, hR, hd⟩ := lookup_eq_ok_iff.mp hroot
  have hname : Path.IsName Tracked.repositoryName := by decide +kernel
  have hget : fs.get? (R ++ [Tracked.repositoryName]) = some (.directory g) := by
    rw [← find?_eq_get? (directoryAt?_eq_some_iff.mpr hd), hg]
  have hlocate : fs.locate (f.root.join ⟨Tracked.repositoryName⟩)
      = .ok (R ++ [Tracked.repositoryName]) :=
    locate_descend hR (by simpa using hname) hget rfl
  rw [Tracked.answer_ofIndex_of_some (Tracked.repositoryIn?_eq_some_iff.mpr
    ⟨_, hlocate, directoryAt?_eq_some_iff.mpr hget⟩), hindex]
  rfl

theorem bytes_root (h : Indexed fs f entries) : f.root.bytes ≠ [] := by
  obtain ⟨d, hroot, -⟩ := h.tree
  obtain ⟨R, hR, -⟩ := lookup_eq_ok_iff.mp hroot
  exact bytes_ne_nil_of_locate hR

/-- **A walk lists tracked paths only.** -/
theorem mem_tracked_of_mem_walk (h : Indexed fs f entries) (hfs : fs.WellFormed)
    (hinput : isStandardInput f.root = false) (hp : p ∈ fs.walk f.isIgnored f.root) :
    p ∈ (Tracked.pathsOf entries).map f.root.join := by
  obtain ⟨l, rfl, hfile, hreached⟩ := (mem_walk hfs hinput p).mp hp
  rw [PathFilter.reachedBelow_isIgnored (hfile.isName hfs)] at hreached
  obtain ⟨e, he, hsegments⟩ := h.covers l hfile hreached
  rw [Tracked.mem_map_join_pathsOf h.bytes_root h.clean]
  exact ⟨e, he, by rw [hsegments]⟩

/-- **An eligible tracked path is one that a walk lists.** -/
theorem mem_walk_of_isEligible (h : Indexed fs f entries) (hfs : fs.WellFormed)
    (hinput : isStandardInput f.root = false)
    (hp : p ∈ (Tracked.pathsOf entries).map f.root.join) (heligible : f.isEligible fs p = true) :
    p ∈ fs.walk f.isIgnored f.root := by
  rw [Tracked.mem_map_join_pathsOf h.bytes_root h.clean] at hp
  obtain ⟨e, he, rfl⟩ := hp
  have hnames := (h.clean e he).names
  obtain ⟨d, hroot, hplain, -⟩ := h.tree
  obtain ⟨entry, hlookup, hadmits⟩ := PathFilter.exists_of_isEligible heligible
  have hget := get?_of_lookup_descend hroot hplain hnames hlookup
  have hplain' : entry.isPlain = true := by
    refine Entry.isPlain_of_get? ?_ hget
    rw [Entry.isPlain]
    exact hplain
  -- an entry with the status of a file that is no link is a regular file
  have hregular : entry.isRegularFile := by
    cases entry with
    | file _ | sealed _ _ | index _ => rfl
    | directory _ => simp [PathFilter.admits, statusOf] at hadmits
    | link _ | outside _ => simp [Entry.isPlain] at hplain'
  refine (mem_walk hfs hinput _).mpr ⟨_, rfl, ⟨d, entry, hroot, hget, hregular⟩, ?_⟩
  rw [PathFilter.reachedBelow_isIgnored hnames]
  have hkept := PathFilter.isIgnored_of_isEligible heligible
  rw [PathFilter.isIgnored_descend hnames, List.any_eq_false] at hkept
  intro n hn
  simpa using hkept n hn

end Indexed

namespace Scanner

theorem filter_root {fs : FileSystem} {o : ScanOptions} {s : Scanner}
    (h : ofOptions fs o = .ok s) : s.filter.root = o.root :=
  (PathFilter.ofPatterns_eq_ok_iff.mp (ofOptions_eq_ok h).2.2).1

/-- The report on a path that is not eligible. -/
theorem exists_skipped {fs : FileSystem} {scope : ScanScope} {p : Path}
    (h : scope.filter.isEligible fs p ≠ true) :
    ∃ v, FileReport.ofPath fs scope p = .skipped v := by
  obtain ⟨-, hskipped⟩ | ⟨hp, -⟩ | ⟨hp, -⟩ := FileReport.ofPath_cases fs scope p
  · exact hskipped
  · exact absurd hp h
  · exact absurd hp h

/-- **Tracked paths and walks find the same.**  In a repository without links whose index is clean
and lists every file that is not ignored, the scan of the tracked paths gives the chunks of the
walk, file by file in another order, and all counters agree but that of skipped paths. -/
theorem sources_agree {fs : FileSystem} (hfs : fs.WellFormed) {o : ScanOptions}
    (hinput : FileSystem.isStandardInput o.root = false) {byIndex byWalk : Scanner}
    (hindex : ofOptions fs { o with useTracked := true } = .ok byIndex)
    (hwalk : ofOptions fs { o with useTracked := false } = .ok byWalk)
    {entries : List TrackedEntry} (hrepository : Indexed fs byWalk.filter entries) :
    ∃ tracked log walked log', ∃ order : List Path,
      byIndex.scan fs = .ok (tracked, log) ∧ byWalk.scan fs = .ok (walked, log') ∧
      order.Perm (byWalk.traversal fs) ∧
      (tracked.rest fs).chunks = order.flatMap (byWalk.expectedChunks fs) ∧
      (walked.rest fs).chunks = (byWalk.traversal fs).flatMap (byWalk.expectedChunks fs) ∧
      (tracked.rest fs).chunks.Perm (walked.rest fs).chunks ∧
      (tracked.rest fs).stream.stats.unskipped = (walked.rest fs).stream.stats.unskipped := by
  obtain ⟨hoptions, -, hfilter⟩ := ofOptions_eq_ok hindex
  obtain ⟨hoptions', -, hfilter'⟩ := ofOptions_eq_ok hwalk
  have hsame : byIndex.filter = byWalk.filter := Except.ok.inj (hfilter.symm.trans hfilter')
  have hroot : byWalk.filter.root = o.root := by rw [filter_root hwalk]
  have hscope : byIndex.scope = byWalk.scope := by
    rw [scope, scope, hoptions, hoptions', hsame]
  -- what the two scans start with
  obtain ⟨source, log, hscan⟩ := scan_of_accepted hindex byIndex.tracked fs
  obtain ⟨source', log', hscan'⟩ := scan_of_accepted hwalk byWalk.tracked fs
  have htracked : byIndex.expectedPaths fs
      = (Tracked.pathsOf entries).map byWalk.filter.root.join := by
    have hanswer := hrepository.answer_ofIndex
    unfold expectedPaths
    rw [tracked_of_ofOptions hindex, hoptions, hroot] at *
    rw [hanswer]
  have hwalked : byWalk.expectedPaths fs = byWalk.traversal fs := by
    unfold expectedPaths traversal
    rw [hoptions']
  have htraversal : byWalk.traversal fs = fs.walk byWalk.filter.isIgnored byWalk.filter.root := by
    rw [traversal, hoptions', hroot]
  rw [← hroot] at hinput
  -- a tracked path that the walk does not list is not eligible
  have hskipped : ∀ p ∈ byIndex.expectedPaths fs, p ∉ byWalk.expectedPaths fs →
      ∃ v, FileReport.ofPath fs byIndex.scope p = .skipped v := by
    intro p hp hnot
    refine exists_skipped fun heligible => hnot ?_
    rw [htracked] at hp
    rw [hscope] at heligible
    rw [hwalked, htraversal]
    exact hrepository.mem_walk_of_isEligible hfs hinput hp heligible
  have hsubset : byWalk.expectedPaths fs ⊆ byIndex.expectedPaths fs := by
    intro p hp
    rw [hwalked, htraversal] at hp
    rw [htracked]
    exact hrepository.mem_tracked_of_mem_walk hfs hinput hp
  have hnodup : (byIndex.expectedPaths fs).Nodup := by
    rw [htracked]
    exact Tracked.nodup_map_join_pathsOf hrepository.bytes_root hrepository.clean
  have hnodup' : (byWalk.expectedPaths fs).Nodup := by
    rw [hwalked, htraversal]
    exact (FileSystem.pairwise_walk _ hfs _).nodup
  obtain ⟨order, hperm, hchunks, hchunks', hstats⟩ := ChunkStream.rest_of_sources fs
    { scope := byIndex.scope, source, paths := byIndex.expectedPaths fs }
    { scope := byWalk.scope, source := source', paths := byWalk.expectedPaths fs }
    rfl rfl rfl rfl hscope hnodup hnodup' hsubset hskipped
  have hsupply : ∀ paths, ChunkStream.supply fs byIndex.scope paths
      = paths.flatMap (byWalk.expectedChunks fs) := by
    intro paths
    rw [hscope, supply_scope]
  replace hchunks := hchunks.trans (hsupply order)
  replace hchunks' := hchunks'.trans (hsupply _)
  have hchunksPerm := (hperm.flatMap_right (byWalk.expectedChunks fs))
  rw [← hwalked]
  refine ⟨_, log, _, log', order, hscan, hscan', hperm, hchunks, hchunks', ?_, hstats⟩
  exact (List.Perm.of_eq hchunks).trans (hchunksPerm.trans (List.Perm.of_eq hchunks'.symm))

/-- The index of a repository with a conflict, a path in a directory, and one that is gone. -/
def conflictEntries : List TrackedEntry :=
  [⟨Bytes.encode "pkg/b.py", 0⟩, ⟨Bytes.encode "a.py", 3⟩, ⟨Bytes.encode "gone.py", 0⟩,
    ⟨Bytes.encode "a.py", 2⟩]

/-- The repository of that index. -/
def conflictRepository : FileSystem where
  top := .cons (Bytes.encode "repo") (.directory
    (.cons (Bytes.encode "pkg")
      (.directory (.cons (Bytes.encode "b.py") (.file (Bytes.encode "x = 1\n")) .nil))
    (.cons (Bytes.encode ".git")
      (.directory (.cons (Bytes.encode "index") (.index (some conflictEntries)) .nil))
    (.cons (Bytes.encode "a.py") (.file (Bytes.encode "def f():\n    pass\n")) .nil)))) .nil

/-- The index lists both files of the repository that are not ignored. -/
theorem indexed_conflictRepository {byWalk : Scanner}
    (h : ofOptions conflictRepository { root := Path.ofString "repo", useTracked := false }
      = .ok byWalk) : Indexed conflictRepository byWalk.filter conflictEntries := by
  have hroot := filter_root h
  have hgit : byWalk.filter.ignoresName Tracked.repositoryName = true := by
    have hdefault : (PathFilter.ofPatterns (Path.ofString "repo") []
        PathFilter.defaultMaxFileSize).toOption.map (·.ignoresName Tracked.repositoryName)
        = some true := by decide +kernel
    rw [(ofOptions_eq_ok h).2.2] at hdefault
    exact Option.some.inj hdefault
  have hfiles : (conflictRepository.walk (fun _ => false) (Path.ofString "repo")).map
      (fun p => Path.names (Path.below (Path.ofString "repo") p))
      = [[Tracked.repositoryName, Tracked.indexName], [Bytes.encode "a.py"],
          [Bytes.encode "pkg", Bytes.encode "b.py"]] := by cbv
  have hfs : conflictRepository.WellFormed := by decide
  refine ⟨?_, by decide +kernel, ?_⟩
  · rw [hroot]
    exact ⟨_, rfl, by decide, _, rfl, rfl⟩
  · intro l hfile hkept
    rw [hroot] at hfile
    -- the file is one of those that a walk lists if it skips nothing
    have hmem : l ∈ (conflictRepository.walk (fun _ => false) (Path.ofString "repo")).map
        (fun p => Path.names (Path.below (Path.ofString "repo") p)) := by
      refine List.mem_map.mpr ⟨(Path.ofString "repo").descend l, ?_,
        Path.names_below_descend _ (hfile.isName hfs)⟩
      exact (FileSystem.mem_walk hfs (by decide) _).mpr ⟨l, rfl, hfile, fun _ _ _ => rfl⟩
    rw [hfiles] at hmem
    simp only [List.mem_cons, List.not_mem_nil, or_false] at hmem
    rcases hmem with rfl | rfl | rfl
    · have hkeep := hkept _ List.mem_cons_self
      rw [hgit] at hkeep
      cases hkeep
    · exact ⟨⟨Bytes.encode "a.py", 3⟩, by decide, by decide⟩
    · exact ⟨⟨Bytes.encode "pkg/b.py", 0⟩, by decide, by decide⟩

/-- The paths of the index. -/
def conflictPaths : List Path :=
  [Path.ofString "a.py", Path.ofString "gone.py", Path.ofString "pkg/b.py"]

theorem pathsOf_conflictEntries : Tracked.pathsOf conflictEntries = conflictPaths := by
  have hsorted : conflictEntries.mergeSort TrackedEntry.le
      = [⟨Bytes.encode "a.py", 2⟩, ⟨Bytes.encode "a.py", 3⟩, ⟨Bytes.encode "gone.py", 0⟩,
          ⟨Bytes.encode "pkg/b.py", 0⟩] :=
    TrackedEntry.mergeSort_of_perm (by decide) (by decide)
  rw [Tracked.pathsOf, hsorted]
  decide +kernel

/-- The scan of the tracked paths skips the one that is gone. -/
theorem rest_conflictRepository {byIndex : Scanner} {tracked : ChunkStream} {log : List LogLine}
    (h : ofOptions conflictRepository { root := Path.ofString "repo", useTracked := true }
      = .ok byIndex) (hscan : byIndex.scan conflictRepository = .ok (tracked, log)) :
    tracked.source = .tracked ∧
    (tracked.rest conflictRepository).chunks.map (fun c => (c.filepath, c.name))
      = [("a.py", some "f"), ("pkg/b.py", some "b.py")] ∧
    (tracked.rest conflictRepository).stream.stats.skipped = 1 := by
  have hanswer : (byIndex.tracked conflictRepository (Path.ofString "repo")).answer
      = .ok (some conflictPaths) := by
    rw [tracked_of_ofOptions h, ← pathsOf_conflictEntries]
    rfl
  have hexpected : byIndex.expectedPaths conflictRepository
      = conflictPaths.map (Path.ofString "repo").join := by
    rw [expectedPaths, (ofOptions_eq_ok h).1, hanswer]
  have hsource : (byIndex.candidates conflictRepository).source = .tracked := by
    simp only [candidates, (ofOptions_eq_ok h).1, hanswer]
    rfl
  -- what the paths of the index come to
  obtain ⟨s, hs, hsupply, htally⟩ : ∃ s,
      ofOptions conflictRepository { root := Path.ofString "repo", useTracked := true } = .ok s ∧
      (ChunkStream.supply conflictRepository s.scope
        (conflictPaths.map (Path.ofString "repo").join)).map (fun c => (c.filepath, c.name))
        = [("a.py", some "f"), ("pkg/b.py", some "b.py")] ∧
      (ChunkStream.tally conflictRepository s.scope {}
        (conflictPaths.map (Path.ofString "repo").join)).skipped = 1 :=
    ⟨_, rfl, by decide +kernel, by decide +kernel⟩
  obtain rfl : s = byIndex := Except.ok.inj (hs.symm.trans h)
  rw [stream_eq_of_scan hscan]
  obtain ⟨hchunks, hstats⟩ := ChunkStream.rest_spec conflictRepository
    { scope := s.scope, source := (s.candidates conflictRepository).source
      paths := s.expectedPaths conflictRepository }
  refine ⟨hsource, ?_, ?_⟩
  · rw [hchunks, hexpected]
    exact hsupply
  · rw [hstats, hexpected]
    exact htally

/-- The two scans of a repository in which `a.py` has two stages and `gone.py` no file. -/
theorem sources_agree_conflictRepository :
    conflictRepository.WellFormed ∧ FileSystem.isStandardInput (Path.ofString "repo") = false ∧
    ∃ byIndex byWalk,
      ofOptions conflictRepository { root := Path.ofString "repo", useTracked := true }
        = .ok byIndex ∧
      ofOptions conflictRepository { root := Path.ofString "repo", useTracked := false }
        = .ok byWalk ∧
      Indexed conflictRepository byWalk.filter conflictEntries ∧
      ∃ tracked log walked log', ∃ order : List Path,
        byIndex.scan conflictRepository = .ok (tracked, log) ∧
        byWalk.scan conflictRepository = .ok (walked, log') ∧
        order.Perm (byWalk.traversal conflictRepository) ∧
        (tracked.rest conflictRepository).chunks
          = order.flatMap (byWalk.expectedChunks conflictRepository) ∧
        (walked.rest conflictRepository).chunks = (byWalk.traversal conflictRepository).flatMap
          (byWalk.expectedChunks conflictRepository) ∧
        (tracked.rest conflictRepository).chunks.Perm (walked.rest conflictRepository).chunks ∧
        (tracked.rest conflictRepository).stream.stats.unskipped
          = (walked.rest conflictRepository).stream.stats.unskipped ∧
        tracked.source = .tracked ∧
        (tracked.rest conflictRepository).chunks.map (fun c => (c.filepath, c.name))
          = [("a.py", some "f"), ("pkg/b.py", some "b.py")] ∧
        (tracked.rest conflictRepository).stream.stats.skipped = 1 := by
  have hfs : conflictRepository.WellFormed := by decide
  have hinput : FileSystem.isStandardInput (Path.ofString "repo") = false := by decide
  obtain ⟨byIndex, hindex⟩ : ∃ s, ofOptions conflictRepository
      { root := Path.ofString "repo", useTracked := true } = .ok s := ⟨_, rfl⟩
  obtain ⟨byWalk, hwalk⟩ : ∃ s, ofOptions conflictRepository
      { root := Path.ofString "repo", useTracked := false } = .ok s := ⟨_, rfl⟩
  have hrepository := indexed_conflictRepository hwalk
  obtain ⟨tracked, log, walked, log', order, hscan, hscan', hperm, hchunks, hchunks', hsame,
      hstats⟩ :=
    sources_agree (o := { root := Path.ofString "repo" }) hfs hinput hindex hwalk hrepository
  exact ⟨hfs, hinput, byIndex, byWalk, hindex, hwalk, hrepository, tracked, log, walked, log',
    order, hscan, hscan', hperm, hchunks, hchunks', hsame, hstats,
    rest_conflictRepository hindex hscan⟩

end Scanner

end SourceChunks
