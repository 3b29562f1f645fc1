import SourceChunks.Proofs.Files.Traversal
import SourceChunks.Proofs.Scan.Reports
import Mathlib.Algebra.BigOperators.Group.List.Basic
import Mathlib.Algebra.GroupWithZero.Nat
import Mathlib.Data.List.ReduceOption

/-!
# Counters that balance

Every path that a stream has looked at is a file that was cut, a path that was skipped, or one that
could not be read, and each of the counters is a sum over these paths.  `Balanced` says so for a
list of paths; counting one more path keeps it (`Balanced.count`), hence so does any number of them
(`Balanced.tally`).  The chunks of the files that were cut are all handed out or pending
(`Drained.take_append_pending`), wherever between two chunks of a file the pulls stop.
-/

namespace SourceChunks

namespace Tally

/-- **Counting a name once more adds one to the sum of all counts.** -/
theorem total_bump (t : Tally) (name : String) : (t.bump name).total = t.total + 1 := by
  unfold bump
  induction t with
  | nil => rfl
  | cons first rest ih =>
    obtain ⟨n, k⟩ := first
    -- the count of the first name grows, or a new name comes before it, or it comes later
    rw [Tally.update]
    split_ifs
    · show k + 1 + total rest = k + total rest + 1
      omega
    · show 0 + 1 + (k + total rest) = k + total rest + 1
      omega
    · show k + total (update name (· + 1) rest) = k + total rest + 1
      rw [ih]
      omega

theorem one_le_of_mem_bump {t : Tally} (h : ∀ entry ∈ t, 1 ≤ entry.2) (name : String) :
    ∀ entry ∈ t.bump name, 1 ≤ entry.2 := by
  intro entry hentry
  rcases mem_update hentry with hold | ⟨k, rfl⟩
  · exact h entry hold
  · exact Nat.le_add_left 1 k

end Tally

/-! ### Files that are cut -/

namespace ScanScope

variable (scope : ScanScope) (fs : FileSystem)

/-- The file at a path with its contents, if the path is eligible and can be read. -/
def file? (p : Path) : Option (Path × Bytes) :=
  if scope.filter.isEligible fs p then (fs.read p).toOption.map (p, ·) else none

/-- **The files that are cut** among some paths. -/
def files (paths : List Path) : List (Path × Bytes) := paths.filterMap (scope.file? fs)

/-- The chunks of a file, by the settings of the scope. -/
def chunksOf (file : Path × Bytes) : List Chunk :=
  Chunker.chunkFile Registry.builtin scope.chunker (Path.relativeTo scope.root file.1)
    (Bytes.decode file.2)

/-- Did extraction find no unit in a file? -/
def isUnmatched (file : Path × Bytes) : Bool := !(scope.found file.1 file.2).isMatched

theorem files_append (ps qs : List Path) :
    scope.files fs (ps ++ qs) = scope.files fs ps ++ scope.files fs qs :=
  List.filterMap_append

theorem files_singleton (p : Path) : scope.files fs [p] = (scope.file? fs p).toList := by
  rw [files, List.filterMap_cons, List.filterMap_nil]
  cases scope.file? fs p with
  | none => rfl
  | some file => rfl

end ScanScope

/-! ### Counting paths -/

/-- **Counters that balance** after some paths. -/
structure Balanced (fs : FileSystem) (scope : ScanScope) (seen : List Path) (stats : ScanStats) :
    Prop where
  /-- Every path counts once. -/
  paths_eq : stats.files + stats.skipped + stats.readErrors = seen.length
  /-- The paths that were skipped are not eligible. -/
  skipped_eq : stats.skipped = seen.countP (!scope.filter.isEligible fs ·)
  /-- The others that could be read are files. -/
  files_eq : stats.files = (scope.files fs seen).length
  /-- Files without units are those that extraction found nothing in. -/
  fallback_eq : stats.fallbackFiles = (scope.files fs seen).countP scope.isUnmatched
  /-- Each file has a line more than it has line feeds on disk. -/
  lines_eq : stats.totalLines
    = ((scope.files fs seen).map fun file => file.2.count Bytes.lineFeed + 1).sum
  /-- Each file counts for one language. -/
  languages_total : stats.languages.total = stats.files
  /-- Only languages of files are counted. -/
  languages_pos : ∀ entry ∈ stats.languages, 1 ≤ entry.2

section Counting

variable {fs : FileSystem} {scope : ScanScope} {seen : List Path} {stats : ScanStats}

theorem balanced_nil (fs : FileSystem) (scope : ScanScope) : Balanced fs scope [] {} :=
  ⟨rfl, rfl, rfl, rfl, rfl, rfl, List.forall_mem_nil _⟩

theorem Balanced.of_file?_eq_none (h : Balanced fs scope seen stats) {p : Path}
    (hp : scope.file? fs p = none) {skipped readErrors : Nat}
    (hpaths : stats.files + skipped + readErrors = seen.length + 1)
    (hskipped : skipped = stats.skipped + [p].countP (!scope.filter.isEligible fs ·)) :
    Balanced fs scope (seen ++ [p]) { stats with skipped, readErrors } := by
  -- no file is added, so all sums over files stay as they are
  have hfiles : scope.files fs (seen ++ [p]) = scope.files fs seen := by
    rw [ScanScope.files_append, ScanScope.files_singleton, hp]
    exact List.append_nil _
  refine ⟨?_, ?_, ?_, ?_, ?_, h.languages_total, h.languages_pos⟩
  · rw [List.length_append]
    exact hpaths
  · rw [List.countP_append, ← h.skipped_eq]
    exact hskipped
  · rw [hfiles]
    exact h.files_eq
  · rw [hfiles]
    exact h.fallback_eq
  · rw [hfiles]
    exact h.lines_eq

theorem Balanced.addSkipped (h : Balanced fs scope seen stats) {p : Path}
    (hp : scope.filter.isEligible fs p = false) :
    Balanced fs scope (seen ++ [p]) stats.addSkipped := by
  have hpaths := h.paths_eq
  refine h.of_file?_eq_none (by simp [ScanScope.file?, hp]) (by omega) ?_
  rw [List.countP_singleton, hp]
  rfl

theorem Balanced.addReadError (h : Balanced fs scope seen stats) {p : Path}
    (hp : scope.filter.isEligible fs p = true) {e : FileError} (hread : fs.read p = .error e) :
    Balanced fs scope (seen ++ [p]) stats.addReadError := by
  have hpaths := h.paths_eq
  refine h.of_file?_eq_none (by simp [ScanScope.file?, hp, hread, Except.toOption]) (by omega) ?_
  rw [List.countP_singleton, hp]
  rfl

theorem Balanced.addFile (h : Balanced fs scope seen stats) {p : Path}
    (hp : scope.filter.isEligible fs p = true) {b : Bytes} (hread : fs.read p = .ok b)
    (language : String) : Balanced fs scope (seen ++ [p])
      (stats.addFile language (b.count Bytes.lineFeed + 1) (scope.isUnmatched (p, b))) := by
  have hfiles : scope.files fs (seen ++ [p]) = scope.files fs seen ++ [(p, b)] := by
    rw [ScanScope.files_append, ScanScope.files_singleton, ScanScope.file?, hp, hread]
    rfl
  refine ⟨?_, ?_, ?_, ?_, ?_, ?_, Tally.one_le_of_mem_bump h.languages_pos language⟩
  · have := h.paths_eq
    rw [List.length_append, List.length_singleton, ScanStats.addFile]
    dsimp only
    omega
  · rw [List.countP_append, List.countP_singleton, hp, ← h.skipped_eq]
    rfl
  · rw [hfiles, List.length_append, ← h.files_eq]
    rfl
  · rw [hfiles, List.countP_append, List.countP_singleton, ← h.fallback_eq, ScanStats.addFile]
    cases scope.isUnmatched (p, b) with
    | true => rfl
    | false => rfl
  · rw [hfiles, List.map_append, List.sum_append, ← h.lines_eq, List.map_singleton,
      List.sum_singleton]
    rfl
  · rw [ScanStats.addFile]
    dsimp only
    rw [Tally.total_bump, h.languages_total]

/-- **One more path keeps the balance**, whatever becomes of it. -/
theorem Balanced.count (h : Balanced fs scope seen stats) (p : Path) :
    Balanced fs scope (seen ++ [p]) ((FileReport.ofPath fs scope p).count stats) := by
  obtain ⟨hp, v, hreport⟩ | ⟨hp, e, hread, hreport⟩ | ⟨hp, b, hread, hreport⟩ :=
    FileReport.ofPath_cases fs scope p
  · rw [hreport]
    exact h.addSkipped hp
  · rw [hreport]
    exact h.addReadError hp hread
  · rw [hreport, FileReport.count_ofContents]
    exact h.addFile hp hread _

/-- **Any number of paths keep the balance**, by induction on them. -/
theorem Balanced.tally (h : Balanced fs scope seen stats) (paths : List Path) :
    Balanced fs scope (seen ++ paths) (ChunkStream.tally fs scope stats paths) := by
  induction paths generalizing seen stats with
  | nil =>
    rw [List.append_nil]
    exact h
  | cons p rest ih =>
    rw [List.append_cons]
    exact ih (h.count p)

theorem Balanced.with_chunks (h : Balanced fs scope seen stats) (n : Nat) :
    Balanced fs scope seen { stats with chunks := n } :=
  ⟨h.paths_eq, h.skipped_eq, h.files_eq, h.fallback_eq, h.lines_eq, h.languages_total,
    h.languages_pos⟩

theorem Balanced.fallback_le (h : Balanced fs scope seen stats) :
    stats.fallbackFiles ≤ stats.files := by
  rw [h.fallback_eq, h.files_eq]
  exact List.countP_le_length

end Counting

/-! ### Chunks of the files -/

namespace ScanScope

variable (scope : ScanScope) (fs : FileSystem)

theorem chunks_ofContents (p : Path) (b : Bytes) :
    (FileReport.ofContents scope p b).chunks = scope.chunksOf (p, b) := by
  unfold FileReport.ofContents
  exact rfl

/-- **Paths supply the chunks of the files among them.** -/
theorem supply_eq (paths : List Path) :
    ChunkStream.supply fs scope paths = (scope.files fs paths).flatMap scope.chunksOf := by
  induction paths with
  | nil => rfl
  | cons p rest ih =>
    rw [ChunkStream.supply_cons, ih, ← List.singleton_append, files_append, List.flatMap_append]
    congr 1
    rw [files_singleton, file?]
    obtain ⟨hp, v, hreport⟩ | ⟨hp, e, hread, hreport⟩ | ⟨hp, b, hread, hreport⟩ :=
      FileReport.ofPath_cases fs scope p
    · rw [hreport, hp]
      rfl
    · rw [hreport, hp, hread]
      rfl
    · rw [hreport, hp, hread, chunks_ofContents]
      exact (List.flatMap_singleton _ _).symm

theorem length_supply (paths : List Path) : (ChunkStream.supply fs scope paths).length
    = ((scope.files fs paths).map fun file => (scope.chunksOf file).length).sum := by
  rw [supply_eq, List.length_flatMap]

theorem length_files_le (paths : List Path) :
    (scope.files fs paths).length ≤ (ChunkStream.supply fs scope paths).length := by
  rw [length_supply, ← List.length_map (f := fun file => (scope.chunksOf file).length)]
  apply List.length_le_sum_of_one_le
  intro n hn
  obtain ⟨file, -, rfl⟩ := List.mem_map.mp hn
  exact List.length_pos_iff.mpr (Chunker.chunkFile_ne_nil _ _ _ _)

/-- **Files without units have one whole-file chunk each**, and other files have none. -/
theorem countP_isWholeFile_supply (paths : List Path) :
    (ChunkStream.supply fs scope paths).countP Chunk.isWholeFile
      = (scope.files fs paths).countP scope.isUnmatched := by
  rw [supply_eq]
  induction scope.files fs paths with
  | nil => rfl
  | cons file rest ih =>
    have hfile := FileReport.countP_isWholeFile_ofContents scope file.1 file.2
    rw [chunks_ofContents] at hfile
    rw [List.flatMap_cons, List.countP_append, ih, hfile, List.countP_cons, Nat.add_comm,
      ← isUnmatched]
    cases scope.isUnmatched file with
    | true => rfl
    | false => rfl

end ScanScope

namespace ChunkStream

variable {fs : FileSystem} {scope : ScanScope} {paths : List Path} {k processed : Nat}
  {s : ChunkStream}

/-- **What has been handed out and what is pending are the chunks of the processed paths.** -/
theorem Drained.take_append_pending (h : Drained fs scope paths k processed s) :
    (supply fs scope paths).take k ++ s.pending = supply fs scope (paths.take processed) := by
  rw [h.pending_eq]
  -- the pulls stop within the processed paths, or these are all there are
  rcases h.enough with henough | hall
  · rw [supply_eq_take_append_drop paths processed, List.take_append_of_le_length henough,
      List.take_append_drop]
  · rw [hall, List.take_length, List.take_append_drop]

theorem reduceOption_answers {α : Type} (xs : List α) (k : Nat) :
    ((List.range k).map fun i => xs[i]?).reduceOption = xs.take k := by
  induction k with
  | zero => rfl
  | succ k ih =>
    rw [List.range_succ, List.map_append, List.reduceOption_append, ih, List.map_singleton,
      List.reduceOption_singleton, List.take_add_one]

/-- **A stream has come to its end** once as many chunks were asked for as there are,
and one more. -/
theorem Drained.exhausted (h : Drained fs scope paths k processed s)
    (hk : (supply fs scope paths).length < k) : s.paths = [] ∧ s.pending = [] := by
  have hle := length_supply_take_le fs scope paths h.processed_le
  rw [List.take_length] at hle
  have hall : processed = paths.length := h.enough.resolve_left (by omega)
  refine ⟨?_, ?_⟩
  · rw [h.paths_eq, hall, List.drop_length]
  · rw [h.pending_eq, List.drop_eq_nil_iff]
    omega

end ChunkStream

namespace Scanner

/-- **What the counters of a scan have to come to** after some pulls, `seen` being the candidate
paths that were looked at. -/
structure Accounts (s : Scanner) (fs : FileSystem) (seen : List Path) (after : ChunkStream.Pulls) :
    Prop where
  /-- All other candidates are still to come. -/
  seen_append : seen ++ after.stream.paths = s.expectedPaths fs
  /-- The counters balance over the paths that were looked at. -/
  balanced : Balanced fs s.scope seen after.stream.stats
  /-- Files without units are files. -/
  fallback_le : after.stream.stats.fallbackFiles ≤ after.stream.stats.files
  /-- The chunks that are counted were handed out. -/
  chunks_eq : after.stream.stats.chunks = after.answers.reduceOption.length
  /-- With the pending ones they are the chunks of all files so far. -/
  chunks_add_pending : after.stream.stats.chunks + after.stream.pending.length
    = ((s.scope.files fs seen).map fun file => (s.scope.chunksOf file).length).sum
  /-- After an answer `none` there is nothing left. -/
  exhausted : none ∈ after.answers → after.stream.paths = [] ∧ after.stream.pending = []
  /-- With nothing pending, each file has given a chunk, and each file without units
  a whole file. -/
  settled : after.stream.pending = [] → after.stream.stats.files ≤ after.stream.stats.chunks ∧
    after.stream.stats.fallbackFiles = after.answers.reduceOption.countP Chunk.isWholeFile

theorem Accounts.of_drained {s : Scanner} {fs : FileSystem} {k processed : Nat}
    {after : ChunkStream.Pulls}
    (hanswers : after.answers
      = (List.range k).map fun i => (ChunkStream.supply fs s.scope (s.expectedPaths fs))[i]?)
    (h : ChunkStream.Drained fs s.scope (s.expectedPaths fs) k processed after.stream) :
    s.Accounts fs ((s.expectedPaths fs).take processed) after := by
  set seen := (s.expectedPaths fs).take processed with hseen
  have hhanded : after.answers.reduceOption
      = (ChunkStream.supply fs s.scope (s.expectedPaths fs)).take k := by
    rw [hanswers, ChunkStream.reduceOption_answers]
  have hbuilt : after.answers.reduceOption ++ after.stream.pending
      = ChunkStream.supply fs s.scope seen := by
    rw [hhanded, h.take_append_pending]
  have hbalanced : Balanced fs s.scope seen after.stream.stats := by
    have htally := (balanced_nil fs s.scope).tally seen
    rw [List.nil_append] at htally
    rw [h.stats_eq]
    exact htally.with_chunks _
  have hchunks : after.stream.stats.chunks = after.answers.reduceOption.length := by
    rw [h.stats_eq, hhanded, List.length_take]
  refine ⟨?_, hbalanced, hbalanced.fallback_le, hchunks, ?_, ?_, ?_⟩
  · rw [h.paths_eq, hseen, List.take_append_drop]
  · rw [hchunks, ← List.length_append, hbuilt, ScanScope.length_supply]
  · intro hnone
    -- some pull has asked for a chunk after the last one
    rw [hanswers, List.mem_map] at hnone
    obtain ⟨i, hi, hlast⟩ := hnone
    have hlength := List.getElem?_eq_none_iff.mp hlast
    have hlt := List.mem_range.mp hi
    exact h.exhausted (by omega)
  · intro hpending
    -- all chunks that were built have been handed out
    rw [hpending, List.append_nil] at hbuilt
    rw [hchunks, hbuilt, hbalanced.files_eq, hbalanced.fallback_eq]
    exact ⟨s.scope.length_files_le fs seen, (s.scope.countP_isWholeFile_supply fs seen).symm⟩

/-- **The counters of a scan are conserved at every moment.**  Whatever options are accepted and
whoever lists the tracked paths, the scan starts, and after any number of pulls its counters account
for the paths it has looked at and the chunks it has built. -/
theorem pulls_account {fs : FileSystem} {o : ScanOptions} {checked : Scanner}
    (accepted : ofOptions fs o = .ok checked) (tracked : Tracked.Provider) (k : Nat) :
    ∃ stream log seen, { checked with tracked }.scan fs = .ok (stream, log) ∧
      { checked with tracked }.Accounts fs seen (stream.pulls fs k) := by
  obtain ⟨source, log, hscan⟩ := scan_of_accepted accepted tracked fs
  have hstart := ChunkStream.Drained.start fs checked.scope source
    ({ checked with tracked }.expectedPaths fs)
  obtain ⟨processed, hanswers, -, hdrained⟩ := hstart.pulls k
  rw [Nat.zero_add] at hdrained
  rw [← List.range_eq_range'] at hanswers
  exact ⟨_, log, _, hscan, Accounts.of_drained hanswers hdrained⟩

/-- A repository with a file of no language, one that may not be read, one with two
functions and one without any. -/
def ledgerRepository : FileSystem where
  top := .cons (Bytes.encode "repo") (.directory
    (.cons (Bytes.encode "NOTES.md") (.file (Bytes.encode "# notes\n"))
    (.cons (Bytes.encode "__init__.py") (.sealed 9 .permissionDenied)
    (.cons (Bytes.encode "a.py")
      (.file (Bytes.encode "def f():\n    pass\n\ndef g():\n    pass\n"))
    (.cons (Bytes.encode "b.py") (.file (Bytes.encode "x = 1\r\n")) .nil))))) .nil

/-- The paths that a walk through the repository lists. -/
def ledgerPaths : List Path :=
  [Path.ofString "repo/NOTES.md", Path.ofString "repo/__init__.py", Path.ofString "repo/a.py",
    Path.ofString "repo/b.py"]

/-- One pull stops in the middle of a file, after a path that was skipped and one that failed. -/
theorem pulls_account_ledgerRepository :
    ∃ checked stream log seen,
      ofOptions ledgerRepository { root := Path.ofString "repo", useTracked := false }
        = .ok checked ∧
      checked.scan ledgerRepository = .ok (stream, log) ∧ stream.source = .traversal ∧
      checked.Accounts ledgerRepository seen (stream.pulls ledgerRepository 1) ∧
      (stream.pulls ledgerRepository 1).stream.pending.length = 1 ∧
      (stream.pulls ledgerRepository 1).stream.stats = {
        files := 1, chunks := 1, skipped := 1, totalLines := 6, languages := [("python", 1)]
        readErrors := 1 } := by
  obtain ⟨checked, haccepted, hlisted, hscan, hafter⟩ : ∃ checked,
      ofOptions ledgerRepository { root := Path.ofString "repo", useTracked := false }
        = .ok checked ∧
      checked.traversal ledgerRepository = ledgerPaths ∧
      checked.scan ledgerRepository
        = .ok (⟨checked.scope, .traversal, checked.traversal ledgerRepository, [], {}⟩, []) ∧
      let after :=
        ChunkStream.pulls ledgerRepository 1 ⟨checked.scope, .traversal, ledgerPaths, [], {}⟩
      after.stream.pending.length = 1 ∧
      after.stream.stats = {
        files := 1, chunks := 1, skipped := 1, totalLines := 6, languages := [("python", 1)]
        readErrors := 1 } := by
    refine ⟨_, rfl, ?_, rfl, by decide +kernel⟩
    -- the entries of the root are in order, so a walk need not sort them
    refine (FileSystem.walk_of_sorted rfl rfl ?_).trans ?_
    · decide +kernel
    · decide +kernel
  rw [hlisted] at hscan
  obtain ⟨stream, log, seen, hscan', haccounts⟩ := pulls_account haccepted checked.tracked 1
  obtain ⟨rfl, -⟩ := Prod.mk.inj (Except.ok.inj (hscan'.symm.trans hscan))
  exact ⟨checked, _, log, seen, haccepted, hscan', rfl, haccounts, hafter⟩

end Scanner

end SourceChunks
