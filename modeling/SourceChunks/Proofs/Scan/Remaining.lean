import SourceChunks.Proofs.Scan.Pulling

/-!
# What a stream still has to give

`next_cases` says once what a pull can do: hand out a pending chunk, work through paths up to one
that has chunks, or come to the end.  Everything else about single pulls is read off it.  A pull
that finds in the paths it looks at what `g` says hands out the first of the chunks that remain
according to `g`, and the others remain (`next_remaining`).  This does not ask that the files stay
as they are, only that the paths give the same chunks whenever they are looked at.

For files that do not change, `rest_spec` says what pulling until the end comes to.
-/

namespace SourceChunks.ChunkStream

variable {fs : FileSystem} {s : ChunkStream} {g : Path → List Chunk}

/-! ### One pull -/

variable (fs s) in
/-- **What a pull can do**: hand out a pending chunk; work through `n` paths and hand out the first
chunk of the last of them; or work through all paths and find nothing. -/
theorem next_cases :
    (∃ c cs, s.pending = c :: cs ∧
      s.next fs = ⟨some c, { s with pending := cs, stats := s.stats.addChunk }, []⟩) ∨
    (s.pending = [] ∧ ∃ n c cs log, n ≤ s.paths.length ∧
      supply fs s.scope (s.paths.take n) = c :: cs ∧
      s.next fs = ⟨some c, { s with
        paths := s.paths.drop n
        pending := cs
        stats := (tally fs s.scope s.stats (s.paths.take n)).addChunk }, log⟩) ∨
    (s.pending = [] ∧ supply fs s.scope s.paths = [] ∧ ∃ log,
      s.next fs = ⟨none, { s with
        paths := []
        pending := []
        stats := tally fs s.scope s.stats s.paths }, log⟩) := by
  rcases hp : s.pending with _ | ⟨c, cs⟩
  · right
    obtain ⟨n, hn, hpaths, hpending, -, hall, hstats, -⟩ := advance_spec fs s.scope s.stats s.paths
    rcases hcs : (advance fs s.scope s.stats s.paths).pending with _ | ⟨c, cs⟩
    · have hend := hall hcs
      rw [hend, List.drop_length] at hpaths
      rw [hend, List.take_length] at hstats hpending
      refine Or.inr ⟨rfl, by rw [← hpending, hcs], (advance fs s.scope s.stats s.paths).log, ?_⟩
      simp only [next, refill, hp, hcs, hpaths, hstats]
    · refine Or.inl ⟨rfl, n, c, cs, (advance fs s.scope s.stats s.paths).log, hn, ?_, ?_⟩
      · rw [← hpending, hcs]
      · simp only [next, refill, hp, hcs, hpaths, hstats]
  · exact Or.inl ⟨c, cs, rfl, by simp only [next, refill, hp]⟩

/-- **The paths that a pull looks at.** -/
def looked (fs : FileSystem) (s : ChunkStream) : List Path :=
  s.paths.take (s.paths.length - (s.next fs).stream.paths.length)

/-- The paths that a pull looks at come first, and the others remain. -/
theorem looked_append (fs : FileSystem) (s : ChunkStream) :
    s.looked fs ++ (s.next fs).stream.paths = s.paths := by
  obtain ⟨c, cs, -, hnext⟩ | ⟨-, n, c, cs, log, hn, -, hnext⟩ | ⟨-, -, log, hnext⟩ :=
    next_cases fs s
  · simp [looked, hnext]
  · simp [looked, hnext, Nat.sub_sub_self hn]
  · simp [looked, hnext]

/-- **The chunks that remain** in a stream if each path gives what `g` says. -/
def remaining (g : Path → List Chunk) (s : ChunkStream) : List Chunk :=
  s.pending ++ s.paths.flatMap g

/-- **A pull hands out the first of the chunks that remain**, if the paths it looks at give what
`g` says. -/
theorem next_remaining (h : ∀ p ∈ s.looked fs, (FileReport.ofPath fs s.scope p).chunks = g p) :
    (s.next fs).chunk? = (s.remaining g).head? ∧
      (s.next fs).stream.remaining g = (s.remaining g).tail := by
  have hsupply : ∀ paths ⊆ s.looked fs, supply fs s.scope paths = paths.flatMap g := by
    intro paths hpaths
    rw [supply, List.flatMap_def, List.flatMap_def]
    congr 1
    exact List.map_congr_left fun p hp => h p (hpaths hp)
  obtain ⟨c, cs, hp, hnext⟩ | ⟨hp, n, c, cs, log, hn, hcs, hnext⟩ | ⟨hp, hcs, log, hnext⟩ :=
    next_cases fs s
  · rw [hnext, remaining, remaining, hp]
    exact ⟨rfl, rfl⟩
  · have hlooked : s.looked fs = s.paths.take n := by
      rw [looked, hnext]
      show s.paths.take (s.paths.length - (s.paths.drop n).length) = _
      rw [List.length_drop, Nat.sub_sub_self hn]
    have hsplit : s.remaining g = c :: (cs ++ (s.paths.drop n).flatMap g) := by
      rw [remaining, hp, List.nil_append, ← List.take_append_drop n s.paths, List.flatMap_append,
        List.take_append_drop, ← hsupply _ (by rw [hlooked]; exact List.Subset.refl _), hcs,
        List.cons_append]
    rw [hnext, hsplit]
    exact ⟨rfl, rfl⟩
  · have hlooked : s.looked fs = s.paths := by
      rw [looked, hnext]
      exact List.take_length
    have hnil : s.remaining g = [] := by
      rw [remaining, hp, List.nil_append, ← hsupply _ (by rw [hlooked]; exact List.Subset.refl _),
        hcs]
    rw [hnext, hnil]
    exact ⟨rfl, rfl⟩

theorem scope_next (fs : FileSystem) (s : ChunkStream) : (s.next fs).stream.scope = s.scope := by
  obtain ⟨c, cs, -, hnext⟩ | ⟨-, n, c, cs, log, -, -, hnext⟩ | ⟨-, -, log, hnext⟩ :=
    next_cases fs s
  · rw [hnext]
  · rw [hnext]
  · rw [hnext]

/-- Looking at paths counts no chunk. -/
theorem chunks_tally (fs : FileSystem) (scope : ScanScope) (stats : ScanStats)
    (paths : List Path) : (tally fs scope stats paths).chunks = stats.chunks := by
  have h : tally fs scope stats paths
      = { tally fs scope stats paths with chunks := stats.chunks } :=
    tally_with_chunks stats stats.chunks paths
  rw [h]

/-- **A pull counts the chunk that it hands out.** -/
theorem chunks_next (fs : FileSystem) (s : ChunkStream) :
    (s.next fs).stream.stats.chunks = s.stats.chunks + (s.next fs).chunk?.toList.length := by
  obtain ⟨c, cs, -, hnext⟩ | ⟨-, n, c, cs, log, -, -, hnext⟩ | ⟨-, -, log, hnext⟩ :=
    next_cases fs s
  · rw [hnext]
    rfl
  · rw [hnext]
    show (tally fs s.scope s.stats (s.paths.take n)).chunks + 1 = _
    rw [chunks_tally]
    rfl
  · rw [hnext]
    exact chunks_tally fs s.scope s.stats s.paths

/-- **After its end a stream stays at its end**, whatever becomes of the files. -/
theorem next_next_of_eq_none (h : (s.next fs).chunk? = none) (fs' : FileSystem) :
    ((s.next fs).stream.next fs').chunk? = none := by
  obtain ⟨c, cs, -, hnext⟩ | ⟨-, n, c, cs, log, -, -, hnext⟩ | ⟨-, -, log, hnext⟩ :=
    next_cases fs s
  · rw [hnext] at h
    cases h
  · rw [hnext] at h
    cases h
  · rw [hnext]
    rfl

theorem paths_eq_nil_of_eq_none (h : (s.next fs).chunk? = none) :
    (s.next fs).stream.paths = [] := by
  obtain ⟨c, cs, -, hnext⟩ | ⟨-, n, c, cs, log, -, -, hnext⟩ | ⟨-, -, log, hnext⟩ :=
    next_cases fs s
  · rw [hnext] at h
    cases h
  · rw [hnext] at h
    cases h
  · rw [hnext]

/-! ### All pulls -/

/-- **Pulling until the end** gives every chunk that is pending or that a path supplies, and counts
all of them and all paths. -/
theorem rest_spec (fs : FileSystem) (s : ChunkStream) :
    (s.rest fs).chunks = s.pending ++ supply fs s.scope s.paths ∧
    (s.rest fs).stream.stats = { tally fs s.scope s.stats s.paths with
      chunks := s.stats.chunks + (s.pending ++ supply fs s.scope s.paths).length } := by
  fun_induction rest fs s with
  | case1 s after log hend =>
    obtain ⟨c, cs, -, hnext⟩ | ⟨-, n, c, cs, log, -, -, hnext⟩ | ⟨hp, hcs, log, hnext⟩ :=
      next_cases fs s
    · rw [hnext] at hend
      cases hend
    · rw [hnext] at hend
      cases hend
    · rw [hnext] at hend
      obtain ⟨-, rfl, -⟩ := Pull.mk.inj hend
      rw [hp, hcs, List.append_nil, List.length_nil, Nat.add_zero,
        ← chunks_tally fs s.scope s.stats s.paths]
      exact ⟨rfl, rfl⟩
  | case2 s c after log hpull later ih =>
    obtain ⟨ihchunks, ihstats⟩ := ih
    obtain ⟨c, cs, hp, hnext⟩ | ⟨hp, n, c, cs, log, hn, hcs, hnext⟩ | ⟨-, -, log, hnext⟩ :=
      next_cases fs s
    · rw [hnext] at hpull
      obtain ⟨hc, rfl, -⟩ := Pull.mk.inj hpull
      obtain rfl := Option.some.inj hc
      refine ⟨?_, ?_⟩
      · show c :: later.chunks = _
        rw [ihchunks, hp, List.cons_append]
      · show later.stream.stats = _
        rw [ihstats, hp, ScanStats.addChunk, tally_with_chunks, List.cons_append, List.length_cons,
          Nat.add_right_comm, Nat.add_assoc]
    · rw [hnext] at hpull
      obtain ⟨hc, rfl, -⟩ := Pull.mk.inj hpull
      obtain rfl := Option.some.inj hc
      -- the paths that were worked through, and those behind them
      have hsupply : supply fs s.scope s.paths
          = c :: (cs ++ supply fs s.scope (s.paths.drop n)) := by
        rw [supply_eq_take_append_drop s.paths n, hcs, List.cons_append]
      have htally : tally fs s.scope s.stats s.paths
          = tally fs s.scope (tally fs s.scope s.stats (s.paths.take n)) (s.paths.drop n) := by
        rw [← tally_append, List.take_append_drop]
      refine ⟨?_, ?_⟩
      · show c :: later.chunks = _
        rw [ihchunks, hp, hsupply, List.nil_append]
      · show later.stream.stats = _
        rw [ihstats, hp, ScanStats.addChunk, tally_with_chunks, hsupply, htally, chunks_tally,
          List.nil_append, List.length_cons, Nat.add_right_comm, Nat.add_assoc]
    · rw [hnext] at hpull
      cases hpull

end SourceChunks.ChunkStream
