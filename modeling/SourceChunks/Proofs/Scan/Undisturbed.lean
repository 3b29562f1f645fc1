import SourceChunks.Proofs.Files.Writing
import SourceChunks.Proofs.Scan.Pulling

/-!
# Scans beside a file that is written

A scan sees a file that is written at `l` in three ways: as the index of the repository, as a path
that a walk lists, and as what a candidate path leads to.  If it is not the index, the tracked paths
are the same (`answer_ofIndex_of_writtenAt`), and a path that is listed only now led nowhere before,
so it has no chunks to give (`flatMap_expectedPaths`).  A path that does not lead to `l` gives the
chunks it gave before (`expectedChunks_of_writtenAt`).
-/

namespace SourceChunks

open FileSystem

variable {fs fs' : FileSystem} {l : Location} {s : Scanner} {p root : Path}

/-! ### The chunks of a path -/

/-- Does a filter let a path through that leads to an entry? -/
def PathFilter.admits (f : PathFilter) (p : Path) (e : Entry) : Bool :=
  !f.isIgnored p && (Registry.builtin.resolve? p).isSome &&
    match statusOf e with
    | .file size => size ≤ f.maxFileSize
    | .directory => false

theorem PathFilter.isEligible_eq (f : PathFilter) (fs : FileSystem) (p : Path) :
    f.isEligible fs p = ((fs.lookup p).toOption.map (f.admits p)).getD false := by
  rw [isEligible, judge, status]
  cases hignored : f.isIgnored p with
  | true => cases fs.lookup p <;> simp [Except.toOption, admits, hignored]
  | false =>
    cases hlanguage : Registry.builtin.resolve? p with
    | none => cases fs.lookup p <;> simp [Except.toOption, admits, hlanguage]
    | some entry =>
      cases fs.lookup p with
      | error e => rfl
      | ok e =>
        simp only [Except.map, Except.toOption, Option.map_some, Option.getD_some, admits, hignored,
          hlanguage]
        cases statusOf e with
        | directory => rfl
        | file size =>
          by_cases hsize : size > f.maxFileSize
          · simp [hsize, Nat.not_le.mpr hsize]
          · simp [hsize, Nat.not_lt.mp hsize]

theorem PathFilter.exists_of_isEligible {f : PathFilter} (h : f.isEligible fs p = true) :
    ∃ e, fs.lookup p = .ok e ∧ f.admits p e = true := by
  rw [isEligible_eq] at h
  cases hlookup : fs.lookup p with
  | error e =>
    rw [hlookup] at h
    cases h
  | ok e =>
    rw [hlookup] at h
    exact ⟨e, rfl, h⟩

/-- An eligible path has a language. -/
theorem PathFilter.isSome_of_isEligible {f : PathFilter} (h : f.isEligible fs p = true) :
    (Registry.builtin.resolve? p).isSome := by
  obtain ⟨e, -, hadmits⟩ := exists_of_isEligible h
  rw [admits, Bool.and_eq_true, Bool.and_eq_true] at hadmits
  exact hadmits.1.2

namespace Scanner

variable (s p) in
/-- The chunks of a path that leads to an entry. -/
def entryChunks (e : Entry) : List Chunk :=
  match s.filter.admits p e, contentsOf e with
  | true, .ok contents => Chunker.chunkFile Registry.builtin s.options.chunker
      (Path.relativeTo s.options.root p) (Bytes.decode contents)
  | _, _ => []

theorem entryChunks_surface (e : Entry) : s.entryChunks p e.surface = s.entryChunks p e := by
  cases e <;> rfl

/-- **The chunks of a path are those of the entry that it leads to.** -/
theorem expectedChunks_eq (s : Scanner) (fs : FileSystem) (p : Path) :
    s.expectedChunks fs p = ((fs.lookup p).toOption.map (s.entryChunks p)).getD [] := by
  rw [expectedChunks, PathFilter.isEligible_eq, FileSystem.read]
  cases fs.lookup p with
  | error e => rfl
  | ok e => rfl

theorem chunks_eq (s : Scanner) (fs : FileSystem) :
    s.chunks fs = (s.expectedPaths fs).flatMap (s.expectedChunks fs) := by
  rw [chunks, paths_candidates]
  simp only [chunks_ofPath]

theorem expectedChunks_of_not_isEligible (h : s.filter.isEligible fs p = false) :
    s.expectedChunks fs p = [] := by
  rw [expectedChunks, h]

theorem expectedChunks_of_not_located (h : ∀ l, fs.locate p ≠ .ok l) :
    s.expectedChunks fs p = [] := by
  rw [expectedChunks_eq]
  cases hlookup : fs.lookup p with
  | error e => rfl
  | ok e =>
    obtain ⟨l, hlocate, -⟩ := lookup_eq_ok_iff.mp hlookup
    exact absurd hlocate (h l)

/-- **A path that does not lead to the written file gives what it gave.** -/
theorem expectedChunks_of_writtenAt (h : WrittenAt l fs fs') (hp : fs'.locate p ≠ .ok l) :
    s.expectedChunks fs' p = s.expectedChunks fs p := by
  have hsurface : s.entryChunks p = s.entryChunks p ∘ Entry.surface := by
    funext e
    exact (entryChunks_surface e).symm
  rw [expectedChunks_eq, expectedChunks_eq, hsurface, ← Option.map_map, ← Option.map_map,
    h.lookup hp]

end Scanner

/-! ### Tracked paths -/

namespace Tracked

theorem repositoryIn?_eq_some_iff {d : Directory} : repositoryIn? fs root = some d ↔
    ∃ g, fs.locate (root.join ⟨repositoryName⟩) = .ok g ∧ fs.directoryAt? g = some d := by
  simp only [directoryAt?_eq_some_iff, ← lookup_eq_ok_iff]
  unfold repositoryIn?
  split
  · rename_i d' hd'
    rw [hd']
    constructor
    · rintro h
      rw [Option.some.inj h]
    · intro h
      cases h
      rfl
  · rename_i hnone
    constructor
    · intro h
      cases h
    · intro h
      exact absurd h (hnone d)

/-- What the entry under the name of the index comes to. -/
def answerOf : Option Entry → Except Failure (Option (List Path))
  | some (.index (some entries)) => .ok (some (pathsOf entries))
  | none => .ok (some [])
  | some _ => .error .damagedIndex

theorem answerOf_surface (found? : Option Entry) :
    answerOf (found?.map Entry.surface) = answerOf found? := by
  rcases found? with _ | e
  · rfl
  · cases e <;> rfl

theorem answer_ofIndex_of_some {d : Directory} (h : repositoryIn? fs root = some d) :
    (ofIndex fs root).answer = answerOf (d.find? indexName) := by
  unfold ofIndex
  rw [h]
  dsimp only
  rcases d.find? indexName with _ | e
  · rfl
  · rcases e with _ | _ | _ | _ | (_ | entries) | _ <;> rfl

theorem answer_ofIndex_of_none (h : repositoryIn? fs root = none) :
    (ofIndex fs root).answer = .ok none := by
  unfold ofIndex
  rw [h]

variable (fs root) in
/-- **The index that is asked lies at a location.** -/
def IndexAt (l : Location) : Prop :=
  ∃ g, fs.locate (root.join ⟨repositoryName⟩) = .ok g ∧ (fs.directoryAt? g).isSome ∧
    l = g ++ [indexName]

variable (fs root) in
/-- **A location of version control's own data**: what `.git` leads to, or anything below it. -/
def MetadataAt (l : Location) : Prop :=
  ∃ g, fs.locate (root.join ⟨repositoryName⟩) = .ok g ∧ g <+: l

theorem IndexAt.metadataAt (h : IndexAt fs root l) : MetadataAt fs root l := by
  obtain ⟨g, hlocate, -, rfl⟩ := h
  exact ⟨g, hlocate, List.prefix_append g _⟩

/-- **The tracked paths are the same** if the written file is not the index. -/
theorem answer_ofIndex_of_writtenAt (h : WrittenAt l fs fs') (hindex : ¬IndexAt fs root l) :
    (ofIndex fs' root).answer = (ofIndex fs root).answer := by
  cases hrepository : repositoryIn? fs root with
  | some d =>
    obtain ⟨g, hlocate, hd⟩ := repositoryIn?_eq_some_iff.mp hrepository
    have hsome : (fs'.directoryAt? g).isSome := by
      rw [h.isSome_directoryAt?, hd]
      rfl
    obtain ⟨d', hd'⟩ := Option.isSome_iff_exists.mp hsome
    have hne : g ++ [indexName] ≠ l := fun heq => hindex ⟨g, hlocate, by rw [hd]; rfl, heq.symm⟩
    rw [answer_ofIndex_of_some (repositoryIn?_eq_some_iff.mpr ⟨g, h.locate hlocate, hd'⟩),
      answer_ofIndex_of_some hrepository, find?_eq_get? hd, find?_eq_get? hd', ← answerOf_surface,
      h.elsewhere _ hne, answerOf_surface]
  | none =>
    have hnone : repositoryIn? fs' root = none := by
      by_contra hsome
      obtain ⟨d', hd'⟩ := Option.ne_none_iff_exists'.mp hsome
      obtain ⟨g, hlocate, hdir⟩ := repositoryIn?_eq_some_iff.mp hd'
      rcases h.locate_cases hlocate with hbefore | ⟨rfl, -⟩
      · have hdir' : (fs.directoryAt? g).isSome := by
          rw [← h.isSome_directoryAt?, hdir]
          rfl
        obtain ⟨d, hd⟩ := Option.isSome_iff_exists.mp hdir'
        rw [repositoryIn?_eq_some_iff.mpr ⟨g, hbefore, hd⟩] at hrepository
        cases hrepository
      · rw [h.directoryAt?_eq_none] at hdir
        cases hdir
    rw [answer_ofIndex_of_none hnone, answer_ofIndex_of_none hrepository]

end Tracked

/-! ### Candidate paths -/

/-- Two lists in the same strict order give the same if they agree on what gives anything. -/
theorem flatMap_eq_of_pairwise {α β : Type} {r : α → α → Prop} [Std.Asymm r] {as bs : List α}
    (has : as.Pairwise r) (hbs : bs.Pairwise r) {g : α → List β}
    (h : ∀ a, g a ≠ [] → (a ∈ as ↔ a ∈ bs)) : as.flatMap g = bs.flatMap g := by
  classical
  have hfilter : ∀ cs : List α, (cs.filter (g · ≠ [])).flatMap g = cs.flatMap g := by
    intro cs
    induction cs with
    | nil => rfl
    | cons c cs ih =>
      by_cases hc : g c = []
      · rw [List.filter_cons_of_neg (by simpa using hc), List.flatMap_cons, hc, ih, List.nil_append]
      · rw [List.filter_cons_of_pos (by simpa using hc), List.flatMap_cons, List.flatMap_cons, ih]
  have hsame : as.filter (g · ≠ []) = bs.filter (g · ≠ []) := by
    refine (has.filter _).eq_of_mem_iff (hbs.filter _) fun a => ?_
    simp only [List.mem_filter, decide_eq_true_eq]
    constructor
    · rintro ⟨ha, hg⟩
      exact ⟨(h a hg).mp ha, hg⟩
    · rintro ⟨hb, hg⟩
      exact ⟨(h a hg).mpr hb, hg⟩
  rw [← hfilter as, ← hfilter bs, hsame]

namespace Scanner

theorem tracked_of_ofOptions {o : ScanOptions} (h : ofOptions fs o = .ok s) :
    s.tracked = Tracked.ofIndex := by
  unfold ofOptions at h
  split_ifs at h
  split at h
  · cases h
  · split at h
    · cases h
    · obtain rfl := Except.ok.inj h
      rfl

theorem isDirectory_of_ofOptions {o : ScanOptions} (h : ofOptions fs o = .ok s) :
    fs.isDirectory o.root = true := by
  unfold ofOptions at h
  split_ifs at h with hroot
  simpa using hroot

/-- The candidates are the tracked paths in both trees, or those of a walk in both. -/
theorem expectedPaths_cases (h : WrittenAt l fs fs') (htracked : s.tracked = Tracked.ofIndex)
    (hindex : s.options.useTracked = true → ¬Tracked.IndexAt fs s.options.root l) :
    s.expectedPaths fs' = s.expectedPaths fs ∨
      s.expectedPaths fs = fs.walk s.filter.isIgnored s.options.root ∧
      s.expectedPaths fs' = fs'.walk s.filter.isIgnored s.options.root := by
  unfold expectedPaths
  cases huse : s.options.useTracked with
  | false => exact Or.inr ⟨rfl, rfl⟩
  | true =>
    rw [htracked, Tracked.answer_ofIndex_of_writtenAt h (hindex huse)]
    rcases (Tracked.ofIndex fs s.options.root).answer with e | (_ | paths)
    · exact Or.inr ⟨rfl, rfl⟩
    · exact Or.inr ⟨rfl, rfl⟩
    · exact Or.inl rfl

section Candidates

variable (h : WrittenAt l fs fs') (hfs : fs.WellFormed) (hfs' : fs'.WellFormed)
  (hroot : fs.isDirectory s.options.root) (htracked : s.tracked = Tracked.ofIndex)
  (hindex : s.options.useTracked = true → ¬Tracked.IndexAt fs s.options.root l)
include h hfs hfs' hroot htracked hindex

/-- **A candidate that is new led nowhere before.** -/
theorem mem_expectedPaths_cases (hp : p ∈ s.expectedPaths fs') :
    p ∈ s.expectedPaths fs ∨ ∀ l', fs.locate p ≠ .ok l' := by
  obtain ⟨R, hR, hdir⟩ := exists_of_isDirectory hroot
  rcases expectedPaths_cases h htracked hindex with heq | ⟨heq, heq'⟩
  · exact Or.inl (heq ▸ hp)
  · rw [heq'] at hp
    rw [heq]
    exact h.mem_walk_cases hfs hfs' hR hdir hp

/-- **The candidates give the same**, whatever paths that led nowhere before have nothing to
give. -/
theorem flatMap_expectedPaths {g : Path → List Chunk}
    (hg : ∀ p, (∀ l', fs.locate p ≠ .ok l') → g p = []) :
    (s.expectedPaths fs').flatMap g = (s.expectedPaths fs).flatMap g := by
  obtain ⟨R, hR, hdir⟩ := exists_of_isDirectory hroot
  rcases expectedPaths_cases h htracked hindex with heq | ⟨heq, heq'⟩
  · rw [heq]
  · rw [heq, heq']
    refine flatMap_eq_of_pairwise (pairwise_walk _ hfs' _) (pairwise_walk _ hfs _) fun p hp => ?_
    constructor
    · intro hmem
      exact (h.mem_walk_cases hfs hfs' hR hdir hmem).resolve_right fun hnone => hp (hg p hnone)
    · exact h.mem_walk hfs hfs' hR hdir

end Candidates

end Scanner

end SourceChunks
