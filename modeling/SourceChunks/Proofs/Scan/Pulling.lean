import SourceChunks.Scan.Scanner
import Mathlib.Data.List.Basic
import Mathlib.Order.Bounds.Defs

/-!
# A lazy scan hands out what an eager one collects

A stream interleaves a list of paths, a queue of pending chunks and paths that give nothing.  The
invariant behind every result here is `Drained`: after `k` pulls, some number of paths has been
processed, the pending chunks are what the processed paths give beyond the first `k`, and no
shorter beginning of the paths gives `k` chunks.  One pull keeps it (`Drained.next`), hence so do
any number of them (`Drained.pulls`), and a scan starts in it.

`Scanner.scan_pulls` puts this together with the checks that come before a scan: whatever options
are accepted, the scan starts, its first `k` pulls are the first `k` chunks of the eager reading,
and exactly the paths that these chunks need have been looked at.
-/

namespace SourceChunks

namespace ChunkStream

/-! ### Several pulls -/

/-- What several pulls give. -/
structure Pulls where
  /-- Their answers, in order. -/
  answers : List (Option Chunk)
  /-- The stream afterwards. -/
  stream : ChunkStream
  /-- What the log says. -/
  log : List LogLine

/-- **Pulls `k` times** from files that do not change. -/
def pulls (fs : FileSystem) : Nat → ChunkStream → Pulls
  | 0, s => ⟨[], s, []⟩
  | k + 1, s =>
    let first := s.next fs
    let later := pulls fs k first.stream
    ⟨first.chunk? :: later.answers, later.stream, first.log ++ later.log⟩

section Drained

variable (fs : FileSystem) (scope : ScanScope)

/-- The chunks of some paths, one path after the other. -/
def supply (paths : List Path) : List Chunk :=
  paths.flatMap fun p => (FileReport.ofPath fs scope p).chunks

/-- The counters after some paths, none of whose chunks has been handed out. -/
def tally (stats : ScanStats) (paths : List Path) : ScanStats :=
  paths.foldl (fun st p => (FileReport.ofPath fs scope p).count st) stats

/-- What the log says about some paths. -/
def logOf (paths : List Path) : List LogLine :=
  paths.flatMap fun p => (FileReport.ofPath fs scope p).log scope p

variable {fs scope}

theorem supply_nil : supply fs scope [] = [] := rfl

theorem supply_cons (p : Path) (ps : List Path) :
    supply fs scope (p :: ps) = (FileReport.ofPath fs scope p).chunks ++ supply fs scope ps :=
  List.flatMap_cons

theorem supply_append (ps qs : List Path) :
    supply fs scope (ps ++ qs) = supply fs scope ps ++ supply fs scope qs :=
  List.flatMap_append

variable (fs scope) in
/-- A longer beginning of some paths gives at least as many chunks. -/
theorem length_supply_take_le (paths : List Path) {i j : Nat} (h : i ≤ j) :
    (supply fs scope (paths.take i)).length ≤ (supply fs scope (paths.take j)).length := by
  obtain ⟨d, rfl⟩ := Nat.exists_eq_add_of_le h
  rw [List.take_add, supply_append, List.length_append]
  omega

/-- The chunks of some paths begin with those of a beginning of the paths. -/
theorem supply_eq_take_append_drop (paths : List Path) (j : Nat) :
    supply fs scope paths = supply fs scope (paths.take j) ++ supply fs scope (paths.drop j) := by
  rw [← supply_append, List.take_append_drop]

/-- Counting a path leaves the number of chunks alone. -/
theorem count_with_chunks (r : FileReport) (stats : ScanStats) (n : Nat) :
    r.count { stats with chunks := n } = { r.count stats with chunks := n } := by
  cases r with
  | skipped v => rfl
  | unreadable e => rfl
  | chunked name lines outcome =>
    simp only [FileReport.count]
    cases outcome.chunks with
    | nil => rfl
    | cons c cs => rfl

theorem tally_with_chunks (stats : ScanStats) (n : Nat) (paths : List Path) :
    tally fs scope { stats with chunks := n } paths
      = { tally fs scope stats paths with chunks := n } := by
  unfold tally
  induction paths generalizing stats with
  | nil => rfl
  | cons p rest ih => rw [List.foldl_cons, List.foldl_cons, count_with_chunks, ih]

theorem tally_append (stats : ScanStats) (ps qs : List Path) :
    tally fs scope stats (ps ++ qs) = tally fs scope (tally fs scope stats ps) qs :=
  List.foldl_append

/-! ### Working through paths -/

variable (fs scope) in
/-- **What working through paths comes to**: some paths are taken off the front, the last of them
has the chunks that are now pending, and those before it have none. -/
theorem advance_spec (stats : ScanStats) (paths : List Path) :
    ∃ n ≤ paths.length,
      (advance fs scope stats paths).paths = paths.drop n ∧
      (advance fs scope stats paths).pending = supply fs scope (paths.take n) ∧
      (∀ j < n, supply fs scope (paths.take j) = []) ∧
      ((advance fs scope stats paths).pending = [] → n = paths.length) ∧
      (advance fs scope stats paths).stats = tally fs scope stats (paths.take n) ∧
      (advance fs scope stats paths).log = logOf fs scope (paths.take n) := by
  induction paths generalizing stats with
  | nil => exact ⟨0, Nat.le_refl _, rfl, rfl, by omega, fun _ => rfl, rfl, rfl⟩
  | cons p rest ih =>
    rw [advance]
    dsimp only
    split
    · rename_i hnone
      obtain ⟨n, hn, hpaths, hpending, hbefore, hall, hstats, hlog⟩ :=
        ih ((FileReport.ofPath fs scope p).count stats)
      refine ⟨n + 1, Nat.succ_le_succ hn, hpaths, ?_, ?_, ?_, hstats, ?_⟩
      · rw [List.take_succ_cons, supply_cons, hnone, List.nil_append, ← hpending]
      · intro j hj
        cases j with
        | zero => rfl
        | succ j => rw [List.take_succ_cons, supply_cons, hnone, List.nil_append,
            hbefore j (by omega)]
      · intro hempty
        rw [hall hempty, List.length_cons]
      · rw [List.take_succ_cons, logOf, List.flatMap_cons, ← logOf, ← hlog]
    · rename_i hsome
      refine ⟨1, Nat.succ_le_succ (Nat.zero_le _), rfl, ?_, ?_, ?_, rfl, ?_⟩
      · simp [supply]
      · intro j hj
        obtain rfl : j = 0 := by omega
        rfl
      · intro hempty
        exact absurd hempty hsome
      · simp [logOf]

/-! ### One pull and many -/

variable (fs scope) in
/-- **The state of a stream over `paths` after `k` pulls**, with `processed` paths looked at.  No
shorter beginning of the paths gives `k` chunks, and if the processed ones do not either, they are
all there are. -/
structure Drained (paths : List Path) (k processed : Nat) (s : ChunkStream) : Prop where
  scope_eq : s.scope = scope
  processed_le : processed ≤ paths.length
  fewer : ∀ j < processed, (supply fs scope (paths.take j)).length < k
  enough : k ≤ (supply fs scope (paths.take processed)).length ∨ processed = paths.length
  paths_eq : s.paths = paths.drop processed
  pending_eq : s.pending = (supply fs scope (paths.take processed)).drop k
  stats_eq : s.stats =
    { tally fs scope {} (paths.take processed) with
      chunks := min k (supply fs scope paths).length }

variable {paths : List Path} {k processed : Nat} {s : ChunkStream}

variable (fs scope) in
/-- A stream is drained of nothing before the first pull. -/
theorem Drained.start (source : PathSource) (paths : List Path) :
    Drained fs scope paths 0 0 { scope, source, paths } where
  scope_eq := rfl
  processed_le := Nat.zero_le _
  fewer := by omega
  enough := Or.inl (Nat.zero_le _)
  paths_eq := rfl
  pending_eq := rfl
  stats_eq := by simp [tally]

/-- With nothing pending, the processed paths give exactly the chunks pulled so far, unless they
are all there are. -/
theorem Drained.length_le (h : Drained fs scope paths k processed s) (hp : s.pending = []) :
    (supply fs scope (paths.take processed)).length ≤ k := by
  rw [h.pending_eq, List.drop_eq_nil_iff] at hp
  exact hp

/-- **A pull from a stream with a pending chunk** hands it out and looks at no path. -/
theorem Drained.next_cons (h : Drained fs scope paths k processed s) {c : Chunk}
    {cs : List Chunk} (hp : s.pending = c :: cs) :
    (s.next fs).chunk? = (supply fs scope paths)[k]? ∧ (s.next fs).log = [] ∧
    Drained fs scope paths (k + 1) processed (s.next fs).stream := by
  have hnext : s.next fs = ⟨some c, { s with pending := cs, stats := s.stats.addChunk }, []⟩ := by
    simp only [next, refill, hp]
  have hdrop : (supply fs scope (paths.take processed)).drop k = c :: cs := by
    rw [← h.pending_eq, hp]
  have hlt : k < (supply fs scope (paths.take processed)).length := by
    by_contra hge
    rw [List.drop_eq_nil_of_le (by omega)] at hdrop
    exact List.cons_ne_nil _ _ hdrop.symm
  have hget : (supply fs scope (paths.take processed))[k]? = some c := by
    rw [← List.head?_drop, hdrop, List.head?_cons]
  have hle : (supply fs scope (paths.take processed)).length ≤ (supply fs scope paths).length := by
    rw [supply_eq_take_append_drop paths processed, List.length_append]
    omega
  rw [hnext]
  refine ⟨?_, rfl, ?_⟩
  · rw [supply_eq_take_append_drop paths processed, List.getElem?_append_left hlt, hget]
  · exact {
      scope_eq := h.scope_eq
      processed_le := h.processed_le
      fewer := fun j hj => Nat.lt_succ_of_lt (h.fewer j hj)
      enough := Or.inl hlt
      paths_eq := h.paths_eq
      pending_eq := by
        show cs = _
        rw [← List.tail_drop, hdrop, List.tail_cons]
      stats_eq := by
        show s.stats.addChunk = _
        rw [h.stats_eq, ScanStats.addChunk]
        dsimp only
        congr 1
        omega }

/-- **A pull from a stream with nothing pending** works through paths up to the first one that
gives a chunk, or through all of them. -/
theorem Drained.next_nil (h : Drained fs scope paths k processed s) (hp : s.pending = []) :
    ∃ processed', (s.next fs).chunk? = (supply fs scope paths)[k]? ∧
      logOf fs scope (paths.take processed) ++ (s.next fs).log
        = logOf fs scope (paths.take processed') ∧
      Drained fs scope paths (k + 1) processed' (s.next fs).stream := by
  obtain ⟨n, hn, hpaths, hpending, hbefore, hall, hstats, hlog⟩ :=
    advance_spec fs scope s.stats s.paths
  set a := advance fs scope s.stats s.paths with ha
  have hlen := h.length_le hp
  have hle := h.processed_le
  rw [h.paths_eq] at hn hpaths hpending hbefore hall hstats hlog
  rw [List.length_drop] at hn hall
  -- what the newly processed paths add to the old ones
  have htake : paths.take (processed + n) = paths.take processed ++ (paths.drop processed).take n :=
    List.take_add
  have hsupply : supply fs scope (paths.take (processed + n))
      = supply fs scope (paths.take processed) ++ a.pending := by
    rw [htake, supply_append, hpending]
  have hrefill : s.refill fs
      = ({ s with paths := a.paths, pending := a.pending, stats := a.stats }, a.log) := by
    simp only [refill, hp, h.scope_eq, ha]
  have hstats' : a.stats = { tally fs scope {} (paths.take (processed + n)) with
      chunks := min k (supply fs scope paths).length } := by
    rw [hstats, h.stats_eq, tally_with_chunks, htake, tally_append]
  have hlog' : logOf fs scope (paths.take processed) ++ a.log
      = logOf fs scope (paths.take (processed + n)) := by
    rw [hlog, htake, logOf, logOf, logOf, List.flatMap_append]
  have hfewer : ∀ j < processed + n, (supply fs scope (paths.take j)).length < k + 1 := by
    intro j hj
    rcases Nat.lt_or_ge j processed with hj' | hj'
    · have := length_supply_take_le fs scope paths (Nat.le_of_lt hj')
      omega
    · obtain ⟨i, rfl⟩ := Nat.exists_eq_add_of_le hj'
      rw [List.take_add, supply_append, hbefore i (by omega), List.append_nil]
      omega
  refine ⟨processed + n, ?_⟩
  rcases hcs : a.pending with _ | ⟨c, cs⟩
  · -- no path is left: the stream has come to its end
    have hn' : processed + n = paths.length := by
      have := hall hcs
      omega
    have hend : supply fs scope paths = supply fs scope (paths.take processed) := by
      rw [hn', List.take_length, hcs, List.append_nil] at hsupply
      exact hsupply
    have hmin : min k (supply fs scope paths).length
        = min (k + 1) (supply fs scope paths).length := by
      rw [hend]
      omega
    have hnext : s.next fs = ⟨none, { s with paths := a.paths, pending := [], stats := a.stats },
        a.log⟩ := by
      simp only [next, hrefill, hcs]
    rw [hnext]
    refine ⟨?_, hlog', ?_⟩
    · rw [hend, List.getElem?_eq_none hlen]
    · exact {
        scope_eq := h.scope_eq
        processed_le := by omega
        fewer := hfewer
        enough := Or.inr hn'
        paths_eq := by
          show a.paths = _
          rw [hpaths, List.drop_drop]
        pending_eq := by
          show [] = _
          rw [hsupply, hcs, List.append_nil, List.drop_eq_nil_of_le (by omega)]
        stats_eq := by
          show a.stats = _
          rw [hstats', hmin] }
  · -- the last path looked at gives a chunk, so those before gave exactly `k`
    have hk : (supply fs scope (paths.take processed)).length = k := by
      rcases h.enough with henough | hend
      · omega
      · have hn0 : n = 0 := by omega
        rw [hn0, List.take_zero, hcs] at hpending
        exact absurd hpending (List.cons_ne_nil c cs)
    have hlt : k < (supply fs scope paths).length := by
      have := length_supply_take_le fs scope paths
        (show processed + n ≤ paths.length by omega)
      rw [hsupply, hcs, List.length_append, List.length_cons, List.take_length] at this
      omega
    have hnext : s.next fs = ⟨some c, { s with
        paths := a.paths, pending := cs, stats := a.stats.addChunk }, a.log⟩ := by
      simp only [next, hrefill, hcs]
    rw [hnext]
    refine ⟨?_, hlog', ?_⟩
    · rw [supply_eq_take_append_drop paths (processed + n), hsupply, hcs, List.append_assoc,
        List.getElem?_append_right (by omega), hk, Nat.sub_self]
      rfl
    · exact {
        scope_eq := h.scope_eq
        processed_le := by omega
        fewer := hfewer
        enough := Or.inl (by
          rw [hsupply, hcs, List.length_append, List.length_cons]
          omega)
        paths_eq := by
          show a.paths = _
          rw [hpaths, List.drop_drop]
        pending_eq := by
          show cs = _
          rw [hsupply, hcs, ← hk, List.drop_length_add_append, List.drop_one, List.tail_cons]
        stats_eq := by
          show a.stats.addChunk = _
          rw [hstats', ScanStats.addChunk]
          dsimp only
          congr 1
          omega }

/-- **One pull keeps the invariant**, and its answer is the next chunk of the eager reading. -/
theorem Drained.next (h : Drained fs scope paths k processed s) :
    ∃ processed', (s.next fs).chunk? = (supply fs scope paths)[k]? ∧
      logOf fs scope (paths.take processed) ++ (s.next fs).log
        = logOf fs scope (paths.take processed') ∧
      Drained fs scope paths (k + 1) processed' (s.next fs).stream := by
  rcases hp : s.pending with _ | ⟨c, cs⟩
  · exact h.next_nil hp
  · obtain ⟨hchunk, hlog, hafter⟩ := h.next_cons hp
    exact ⟨processed, hchunk, by rw [hlog, List.append_nil], hafter⟩

/-- **Any number of pulls keep the invariant**, by induction on their number. -/
theorem Drained.pulls (m : Nat) (h : Drained fs scope paths k processed s) :
    ∃ processed', (s.pulls fs m).answers
        = (List.range' k m).map (fun i => (supply fs scope paths)[i]?) ∧
      logOf fs scope (paths.take processed) ++ (s.pulls fs m).log
        = logOf fs scope (paths.take processed') ∧
      Drained fs scope paths (k + m) processed' (s.pulls fs m).stream := by
  induction m generalizing k processed s with
  | zero => exact ⟨processed, rfl, List.append_nil _, h⟩
  | succ m ih =>
    obtain ⟨middle, hchunk, hlog, hafter⟩ := h.next
    obtain ⟨last, hanswers, hlog', hlast⟩ := ih hafter
    refine ⟨last, ?_, ?_, ?_⟩
    · rw [ChunkStream.pulls, List.range'_succ, List.map_cons, ← hchunk, ← hanswers]
    · rw [ChunkStream.pulls, ← List.append_assoc, hlog, hlog']
    · rw [ChunkStream.pulls, Nat.add_comm m 1, ← Nat.add_assoc]
      exact hlast

/-- The chunks of the last of some paths. -/
def lastChunks (chunks : Path → List Chunk) (paths : List Path) : List Chunk :=
  (paths.getLast?.map chunks).getD []

/-- **Pending chunks come from the last processed file only.**  All files before it have been
handed out, for their chunks are fewer than those pulled. -/
theorem Drained.pending_suffix (h : Drained fs scope paths k processed s) :
    s.pending <:+ lastChunks (fun p => (FileReport.ofPath fs scope p).chunks)
      (paths.take processed) := by
  cases processed with
  | zero =>
    rw [h.pending_eq, List.take_zero, supply_nil, List.drop_nil]
    exact List.nil_suffix
  | succ j =>
    have hj : j < paths.length := h.processed_le
    have hfewer := h.fewer j (Nat.lt_succ_self j)
    rw [h.pending_eq, List.take_succ_eq_append_getElem hj, lastChunks, List.getLast?_concat,
      supply_append, List.drop_append, List.drop_eq_nil_of_le (by omega), List.nil_append,
      supply_cons, supply_nil, List.append_nil]
    exact List.drop_suffix _ _

end Drained

end ChunkStream

/-! ### What becomes of a path -/

namespace FileReport

variable (fs : FileSystem) (scope : ScanScope) (p : Path)

/-- **What becomes of a path**: it is skipped, it cannot be read, or it is a file that is cut. -/
theorem ofPath_cases :
    (scope.filter.isEligible fs p = false ∧ ∃ v, ofPath fs scope p = .skipped v) ∨
    (scope.filter.isEligible fs p = true ∧ ∃ e, fs.read p = .error e ∧
      ofPath fs scope p = .unreadable e) ∨
    (scope.filter.isEligible fs p = true ∧ ∃ b, fs.read p = .ok b ∧
      ofPath fs scope p = ofContents scope p b) := by
  unfold ofPath PathFilter.isEligible
  cases hjudge : scope.filter.judge fs p with
  | eligible =>
    cases hread : fs.read p with
    | error e => exact Or.inr (Or.inl ⟨rfl, e, rfl, rfl⟩)
    | ok b => exact Or.inr (Or.inr ⟨rfl, b, rfl, rfl⟩)
  | ignored => exact Or.inl ⟨rfl, _, rfl⟩
  | noLanguage => exact Or.inl ⟨rfl, _, rfl⟩
  | unknown e => exact Or.inl ⟨rfl, _, rfl⟩
  | notAFile => exact Or.inl ⟨rfl, _, rfl⟩
  | tooLarge size => exact Or.inl ⟨rfl, _, rfl⟩

variable {fs scope p}

theorem exists_of_mem_ofPath {c : Chunk} (hc : c ∈ (ofPath fs scope p).chunks) :
    scope.filter.isEligible fs p = true ∧
      ∃ b, fs.read p = .ok b ∧ c ∈ (ofContents scope p b).chunks := by
  obtain ⟨-, v, hreport⟩ | ⟨-, e, -, hreport⟩ | ⟨hp, b, hread, hreport⟩ := ofPath_cases fs scope p
  · rw [hreport] at hc
    exact absurd hc List.not_mem_nil
  · rw [hreport] at hc
    exact absurd hc List.not_mem_nil
  · rw [hreport] at hc
    exact ⟨hp, b, hread, hc⟩

end FileReport

namespace Scanner

/-! ### The eager reading of a scan -/

/-- **The paths that a scan is to look at**: the tracked ones as seen from the root, if they are
wanted and can be had, and else every file below the root that is not ignored. -/
def expectedPaths (s : Scanner) (fs : FileSystem) : List Path :=
  match s.options.useTracked, (s.tracked fs s.options.root).answer with
  | true, .ok (some tracked) => tracked.map s.options.root.join
  | _, _ => fs.walk s.filter.isIgnored s.options.root

/-- **The chunks that a path is to give**: those of its decoded contents if it is eligible and can
be read, and none otherwise. -/
def expectedChunks (s : Scanner) (fs : FileSystem) (p : Path) : List Chunk :=
  match s.filter.isEligible fs p, fs.read p with
  | true, .ok contents =>
    Chunker.chunkFile Registry.builtin s.options.chunker (Path.relativeTo s.options.root p)
      (Bytes.decode contents)
  | _, _ => []

theorem paths_candidates (s : Scanner) (fs : FileSystem) :
    (s.candidates fs).paths = s.expectedPaths fs := by
  unfold candidates expectedPaths
  dsimp only
  cases s.options.useTracked with
  | false => rfl
  | true =>
    rcases (s.tracked fs s.options.root).answer with e | (_ | tracked)
    · rfl
    · rfl
    · rfl

theorem chunks_ofPath (s : Scanner) (fs : FileSystem) (p : Path) :
    (FileReport.ofPath fs s.scope p).chunks = s.expectedChunks fs p := by
  have hfilter : s.filter = s.scope.filter := rfl
  unfold expectedChunks
  rw [hfilter]
  obtain ⟨hp, v, hreport⟩ | ⟨hp, e, hread, hreport⟩ | ⟨hp, b, hread, hreport⟩ :=
    FileReport.ofPath_cases fs s.scope p
  · rw [hreport, hp]
    rfl
  · rw [hreport, hp, hread]
    rfl
  · rw [hreport, hp, hread]
    rfl

theorem supply_scope (s : Scanner) (fs : FileSystem) (paths : List Path) :
    ChunkStream.supply fs s.scope paths = paths.flatMap (s.expectedChunks fs) := by
  simp only [ChunkStream.supply, chunks_ofPath]

/-- **What a scanner that was made has passed**: all checks on its options, those of the chunker
included. -/
theorem ofOptions_eq_ok {fs : FileSystem} {o : ScanOptions} {s : Scanner}
    (h : ofOptions fs o = .ok s) :
    s.options = o ∧ o.problem? fs = none ∧
      PathFilter.ofPatterns o.root o.ignore o.maxFileSize = .ok s.filter := by
  unfold ofOptions at h
  split_ifs at h
  split at h
  · cases h
  · rename_i hproblem
    split at h
    · cases h
    · rename_i filter hfilter
      obtain rfl := Except.ok.inj h
      exact ⟨rfl, hproblem, hfilter⟩

/-- Options without a problem have settings without one. -/
theorem problem?_chunker {fs : FileSystem} {o : ScanOptions} (h : o.problem? fs = none) :
    o.chunker.problem? = none := by
  unfold ScanOptions.problem? at h
  split_ifs at h
  exact Option.map_eq_none_iff.mp h

/-- **A scanner that was made can start its scans**, whatever becomes of the files and whoever lists
the tracked paths. -/
theorem scan_of_accepted {fs : FileSystem} {o : ScanOptions} {s : Scanner}
    (h : ofOptions fs o = .ok s) (tracked : Tracked.Provider) (now : FileSystem) :
    ∃ source log, { s with tracked }.scan now
      = .ok ({ scope := s.scope, source, paths := { s with tracked }.expectedPaths now }, log) := by
  obtain ⟨hoptions, hproblem, -⟩ := ofOptions_eq_ok h
  have hchunker : s.options.chunker.problem? = none := by
    rw [hoptions]
    exact problem?_chunker hproblem
  refine ⟨({ s with tracked }.candidates now).source, ({ s with tracked }.candidates now).log, ?_⟩
  simp only [scan, hchunker, paths_candidates]
  rfl

theorem scan_eq_ok {fs : FileSystem} {o : ScanOptions} {s : Scanner} (h : ofOptions fs o = .ok s)
    (tracked : Tracked.Provider) :
    ∃ source log, { s with tracked }.scan fs
      = .ok ({ scope := s.scope, source, paths := { s with tracked }.expectedPaths fs }, log) :=
  scan_of_accepted h tracked fs

/-- **A scan starts with a fresh stream** over the paths that it is to look at. -/
theorem stream_eq_of_scan {fs : FileSystem} {s : Scanner} {stream : ChunkStream}
    {log : List LogLine} (h : s.scan fs = .ok (stream, log)) : stream
      = { scope := s.scope, source := (s.candidates fs).source, paths := s.expectedPaths fs } := by
  unfold scan at h
  split at h
  · cases h
  · obtain ⟨rfl, -⟩ := Prod.mk.inj (Except.ok.inj h)
    rw [← paths_candidates]

/-- **What `k` pulls from a scan have to come to**, `processed` paths having been looked at. -/
structure AfterPulls (s : Scanner) (fs : FileSystem) (k processed : Nat)
    (after : ChunkStream.Pulls) : Prop where
  /-- The answers are the first `k` chunks of all paths, and `none` after the last one. -/
  answers_eq : after.answers
    = (List.range k).map fun i => ((s.expectedPaths fs).flatMap (s.expectedChunks fs))[i]?
  /-- The processed paths are the shortest beginning that gives `k` chunks, or all paths. -/
  shortest : IsLeast {j | k ≤ (((s.expectedPaths fs).take j).flatMap (s.expectedChunks fs)).length
    ∨ j = (s.expectedPaths fs).length} processed
  /-- All other paths are still to come. -/
  paths_eq : after.stream.paths = (s.expectedPaths fs).drop processed
  /-- Pending are the chunks of processed paths that were not handed out. -/
  pending_eq : after.stream.pending
    = (((s.expectedPaths fs).take processed).flatMap (s.expectedChunks fs)).drop k
  /-- Pending chunks belong to the last processed path. -/
  pending_last : after.stream.pending
    <:+ ChunkStream.lastChunks (s.expectedChunks fs) ((s.expectedPaths fs).take processed)
  /-- The counters are those of the processed paths and of the chunks handed out. -/
  stats_eq : after.stream.stats
    = { ChunkStream.tally fs s.scope {} ((s.expectedPaths fs).take processed) with
        chunks := min k ((s.expectedPaths fs).flatMap (s.expectedChunks fs)).length }
  /-- The log speaks of the processed paths, in order. -/
  log_eq : after.log = ChunkStream.logOf fs s.scope ((s.expectedPaths fs).take processed)

/-- **A lazy scan refines the eager one.**  Whatever options are accepted and whoever lists the
tracked paths, the scan starts, and after any number of pulls its answers and its state are those
that the eager reading prescribes. -/
theorem scan_pulls {fs : FileSystem} {o : ScanOptions} {checked : Scanner}
    (accepted : ofOptions fs o = .ok checked) (tracked : Tracked.Provider) (k : Nat) :
    ∃ stream log processed, { checked with tracked }.scan fs = .ok (stream, log) ∧
      { checked with tracked }.AfterPulls fs k processed (stream.pulls fs k) := by
  set s : Scanner := { checked with tracked }
  obtain ⟨source, log, hscan⟩ := scan_eq_ok accepted tracked
  have hstart := ChunkStream.Drained.start fs s.scope source (s.expectedPaths fs)
  obtain ⟨processed, hanswers, hlog, hdrained⟩ := hstart.pulls k
  rw [supply_scope, ← List.range_eq_range'] at hanswers
  rw [Nat.zero_add] at hdrained
  have hfewer := hdrained.fewer
  have henough := hdrained.enough
  have hpending := hdrained.pending_eq
  have hsuffix := hdrained.pending_suffix
  have hstats := hdrained.stats_eq
  simp only [supply_scope, chunks_ofPath] at hfewer henough hpending hsuffix hstats
  refine ⟨_, log, processed, hscan, hanswers, ⟨henough, ?_⟩, hdrained.paths_eq, hpending, hsuffix,
    hstats, hlog⟩
  rintro j (hj | rfl)
  · by_contra hlt
    exact absurd (hfewer j (by omega)) (by omega)
  · exact hdrained.processed_le

/-- A repository with a file of no language, a source file and one that may not be read. -/
def mixedRepository : FileSystem where
  top := .cons (Bytes.encode "repo") (.directory
    (.cons (Bytes.encode "notes.md") (.file (Bytes.encode "# notes\n"))
    (.cons (Bytes.encode "broken.py") (.sealed 9 .permissionDenied)
    (.cons (Bytes.encode "a.py") (.file (Bytes.encode "import os\n\ndef f():\n    pass\n"))
    .nil)))) .nil

/-- All three paths of the repository, as a fixed list of tracked ones. -/
def mixedTracked : Tracked.Provider :=
  Tracked.ofList [Path.ofString "notes.md", Path.ofString "broken.py", Path.ofString "a.py"]

/-- Two pulls from the repository; the second one finds nothing after the one source file. -/
theorem scan_pulls_mixedRepository :
    ∃ checked, ofOptions mixedRepository { root := Path.ofString "repo" } = .ok checked ∧
      ∃ stream log processed,
        { checked with tracked := mixedTracked }.scan mixedRepository = .ok (stream, log) ∧
        { checked with tracked := mixedTracked }.AfterPulls mixedRepository 2 processed
          (stream.pulls mixedRepository 2) ∧
        stream.source = .tracked ∧
        (stream.pulls mixedRepository 2).answers.map (·.map fun c => (c.filepath, c.content))
          = [some ("a.py", "def f():\n    pass"), none] ∧
        (stream.pulls mixedRepository 2).stream.stats = {
          files := 1, chunks := 1, skipped := 1, totalLines := 5, languages := [("python", 1)]
          readErrors := 1 } := by
  obtain ⟨checked, stream, log, haccepted, hscan, hsource, hpulls⟩ : ∃ checked stream log,
      ofOptions mixedRepository { root := Path.ofString "repo" } = .ok checked ∧
      { checked with tracked := mixedTracked }.scan mixedRepository = .ok (stream, log) ∧
      stream.source = .tracked ∧
      (stream.pulls mixedRepository 2).answers.map (·.map fun c => (c.filepath, c.content))
        = [some ("a.py", "def f():\n    pass"), none] ∧
      (stream.pulls mixedRepository 2).stream.stats = {
        files := 1, chunks := 1, skipped := 1, totalLines := 5, languages := [("python", 1)]
        readErrors := 1 } :=
    ⟨_, _, _, rfl, rfl, rfl, by decide +kernel, by decide +kernel⟩
  obtain ⟨stream', log', processed, hscan', hafter⟩ := scan_pulls haccepted mixedTracked 2
  obtain ⟨rfl, -⟩ := Prod.mk.inj (Except.ok.inj (hscan'.symm.trans hscan))
  exact ⟨checked, haccepted, stream', log', processed, hscan', hafter, hsource, hpulls⟩

end Scanner

end SourceChunks
