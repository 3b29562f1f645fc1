import SourceChunks.Proofs.Chunk.LineSpans

/-!
# What a file that is cut counts for

A file that is cut is either a list of units, at least one and none of them a whole file, or a whole
file and nothing else.  The counters see which of the two it was, for a list of one chunk that is a
whole file comes from a file without units only (`FileReport.count_ofContents`).
-/

namespace SourceChunks

namespace SourceFile

variable {f : SourceFile} {found : Extraction}

theorem language_of_mem_chunks {c : Chunk} (hc : c ∈ f.chunks found) : c.language = f.language := by
  cases found with
  | matched units =>
    obtain ⟨u, -, rfl⟩ := List.mem_map.mp hc
    rfl
  | unmatched =>
    obtain rfl := List.mem_singleton.mp hc
    rfl

/-- **A file without units has one whole-file chunk**, and one with units has none. -/
theorem countP_isWholeFile_chunks (hkinds : ∀ units, found = .matched units →
    ∀ u ∈ units, u.kind ≠ .moduleFile) :
    (f.chunks found).countP Chunk.isWholeFile = (!found.isMatched).toNat := by
  cases found with
  | unmatched => rfl
  | matched units =>
    rw [SourceFile.chunks, List.countP_eq_zero.mpr]
    · rfl
    · intro c hc hwhole
      obtain ⟨u, hu, rfl⟩ := List.mem_map.mp hc
      exact hkinds units rfl u hu (beq_iff_eq.mp hwhole)

theorem isFallback_chunks (hkinds : ∀ units, found = .matched units →
    ∀ u ∈ units, u.kind ≠ .moduleFile) :
    FileReport.isFallback (f.chunks found) = !found.isMatched := by
  cases found with
  | unmatched => rfl
  | matched units =>
    match units, hkinds units rfl with
    | [], _ => rfl
    | [u], hkinds =>
      show ((f.chunkOf u).kind == .moduleFile) = false
      rw [beq_eq_false_iff_ne]
      exact hkinds u List.mem_cons_self
    | _ :: _ :: _, _ => rfl

end SourceFile

/-- Changing a count puts nothing else into a tally. -/
theorem Tally.mem_update {name : String} {f : Nat → Nat} {t : Tally} {entry : String × Nat}
    (h : entry ∈ t.update name f) : entry ∈ t ∨ ∃ k, entry = (name, f k) := by
  induction t with
  | nil => exact Or.inr ⟨0, List.mem_singleton.mp h⟩
  | cons first rest ih =>
    obtain ⟨n, k⟩ := first
    rw [Tally.update] at h
    split_ifs at h with heq
    · rcases List.mem_cons.mp h with rfl | hmem
      · exact Or.inr ⟨k, by rw [heq]⟩
      · exact Or.inl (List.mem_cons_of_mem _ hmem)
    · rcases List.mem_cons.mp h with rfl | hmem
      · exact Or.inr ⟨0, rfl⟩
      · exact Or.inl hmem
    · rcases List.mem_cons.mp h with rfl | hmem
      · exact Or.inl List.mem_cons_self
      · exact (ih hmem).imp_left (List.mem_cons_of_mem _)

/-! ### Files in a scope -/

namespace ScanScope

/-- **The file at a path**, as it is cut: the language is that of its path below the root. -/
def sourceFile (scope : ScanScope) (p : Path) (contents : Bytes) : SourceFile :=
  let name := Path.relativeTo scope.root p
  .ofText name (Bytes.decode contents) (Registry.builtin.resolve? (Path.ofString name))
    scope.chunker.importScanLines

/-- **What extraction finds in the file at a path.** -/
def found (scope : ScanScope) (p : Path) (contents : Bytes) : Extraction :=
  .ofText scope.chunker (Registry.builtin.resolve? (Path.ofString (Path.relativeTo scope.root p)))
    (Bytes.decode contents)

end ScanScope

namespace FileReport

variable (scope : ScanScope) (p : Path) (contents : Bytes)

theorem chunks_ofContents : (ofContents scope p contents).chunks
    = (scope.sourceFile p contents).chunks (scope.found p contents) := by
  simp only [ofContents, chunks, Chunker.run, ScanScope.sourceFile, ScanScope.found,
    Extraction.ofText]

theorem chunks_ofContents_ne_nil : (ofContents scope p contents).chunks ≠ [] := by
  unfold ofContents
  exact Chunker.chunkFile_ne_nil Registry.builtin scope.chunker _ _

theorem countP_isWholeFile_ofContents :
    (ofContents scope p contents).chunks.countP Chunk.isWholeFile
      = (!(scope.found p contents).isMatched).toNat := by
  rw [chunks_ofContents]
  exact SourceFile.countP_isWholeFile_chunks fun _ hfound => (Extraction.matched_units hfound).2

/-- **What a file that was cut counts for**: its language, the line feeds on disk and one more line,
and whether it had no units. -/
theorem count_ofContents (stats : ScanStats) : (ofContents scope p contents).count stats
    = stats.addFile (scope.sourceFile p contents).language (contents.count Bytes.lineFeed + 1)
        (!(scope.found p contents).isMatched) := by
  have hlines : (linesOf (Bytes.decode contents)).length = contents.count Bytes.lineFeed + 1 := by
    rw [Bytes.linesOf_decode, List.length_map, Bytes.length_lines]
  obtain ⟨c, cs, hcs⟩ := List.exists_cons_of_ne_nil (chunks_ofContents_ne_nil scope p contents)
  have hmem : c ∈ (scope.sourceFile p contents).chunks (scope.found p contents) := by
    rw [← chunks_ofContents, hcs]
    exact List.mem_cons_self
  have hlanguage := SourceFile.language_of_mem_chunks hmem
  have hfallback : isFallback (c :: cs) = !(scope.found p contents).isMatched := by
    rw [← hcs, chunks_ofContents]
    exact SourceFile.isFallback_chunks fun _ hfound => (Extraction.matched_units hfound).2
  have hcount : (ofContents scope p contents).count stats = stats.addFile c.language
      (linesOf (Bytes.decode contents)).length (isFallback (c :: cs)) := by
    unfold ofContents at hcs ⊢
    simp only [chunks] at hcs
    simp only [count, hcs]
  rw [hcount, hlanguage, hlines, hfallback]

end FileReport

end SourceChunks
