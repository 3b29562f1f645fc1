import SourceChunks.Proofs.Chunk.Ids
import SourceChunks.Proofs.Chunk.Shapes
import SourceChunks.Proofs.Scan.Reports
import SourceChunks.Proofs.Scan.Sources
import SourceChunks.Proofs.Text.Parts

/-!
# The size that chunks record

The filter asks for the size of a file and lets no file through that has too many bytes.  What a
chunk records is the size of the text that these bytes decode to, and that is larger by the
`surplus` of the bytes (`FileReport.fileSize_of_mem_ofPath`).  So the two sizes agree for a file
that is text, and for no file with a broken part of one or two bytes; the recorded one may then pass
the limit.
-/

namespace SourceChunks

variable {fs : FileSystem} {p : Path} {b : Bytes}

/-- A file that is let through has no more bytes than the filter allows. -/
theorem PathFilter.length_le_of_isEligible {f : PathFilter} (heligible : f.isEligible fs p = true)
    (hread : fs.read p = .ok b) : b.length ≤ f.maxFileSize := by
  obtain ⟨e, hlookup, hadmits⟩ := exists_of_isEligible heligible
  have hcontents : FileSystem.contentsOf e = .ok b := by
    rw [FileSystem.read, hlookup] at hread
    exact hread
  rw [admits, Bool.and_eq_true] at hadmits
  have hsize := hadmits.2
  -- the status tells the number of bytes that reading gives
  cases e with
  | file contents =>
    obtain rfl := Except.ok.inj hcontents
    simpa [FileSystem.statusOf] using hsize
  | outside reading =>
    obtain rfl : reading = .ok b := hcontents
    simpa [FileSystem.statusOf] using hsize
  | index tracked =>
    obtain rfl := Except.ok.inj hcontents
    exact Nat.zero_le _
  | sealed _ _ | directory _ | link _ => cases hcontents

/-- **A chunk records the size of its file and the surplus of decoding it.** -/
theorem FileReport.fileSize_of_mem_ofPath {scope : ScanScope} {c : Chunk}
    (hc : c ∈ (ofPath fs scope p).chunks) :
    ∃ b, fs.read p = .ok b ∧ b.length ≤ scope.filter.maxFileSize ∧
      c.filepath = Path.relativeTo scope.root p ∧ c.Cites b ∧
      c.metadata.fileSize = b.length + b.surplus := by
  obtain ⟨heligible, b, hread, hc⟩ := exists_of_mem_ofPath hc
  refine ⟨b, hread, PathFilter.length_le_of_isEligible heligible hread, ?_,
    Chunker.cites_run _ _ _ b c hc, ?_⟩
  · exact SourceFile.filepath_of_mem_chunks hc
  · rw [chunks_ofContents] at hc
    have hsize : c.metadata.fileSize = (Bytes.decode b).utf8ByteSize :=
      (SourceFile.belongsTo_of_mem_chunks hc).fileSize_eq
    rw [hsize, ← Bytes.length_encode, Bytes.length_encode_decode]

namespace Scanner

/-- **Recorded sizes.**  Whatever options are accepted, whoever lists the tracked paths and whatever
happens to the files between the pulls, a chunk that is handed out comes from a file that had no
more bytes than allowed.  The chunk records their number and, for each broken part of them, what the
part falls short of three bytes.  So the number is right exactly if all broken parts have three
bytes, and it is right for text. -/
theorem recorded_sizes {o : ScanOptions} {s : Scanner} (accepted : ofOptions fs o = .ok s)
    (tracked : Tracked.Provider) :
    ∃ stream log, { s with tracked }.scan fs = .ok (stream, log) ∧
      ∀ (moments : List FileSystem) (c : Chunk), some c ∈ stream.answersOver moments →
        ∃ now ∈ moments, ∃ p ∈ { s with tracked }.expectedPaths fs, ∃ b, now.read p = .ok b ∧
          c.filepath = Path.relativeTo o.root p ∧ c.Cites b ∧ b.length ≤ o.maxFileSize ∧
          c.metadata.fileSize = b.length + (b.brokenParts.map fun part => 3 - part.length).sum ∧
          (c.metadata.fileSize = b.length ↔ ∀ part ∈ b.brokenParts, part.length = 3) ∧
          ((Bytes.decode? b).isSome = true → c.metadata.fileSize = b.length) ∧
          c.metadata.fileSize ≤ 3 * o.maxFileSize := by
  obtain ⟨source, log, hscan⟩ := scan_of_accepted accepted tracked fs
  obtain ⟨hoptions, -, hfilter⟩ := ofOptions_eq_ok accepted
  have hlimit : s.filter.maxFileSize = o.maxFileSize :=
    (PathFilter.ofPatterns_eq_ok_iff.mp hfilter).2.2
  refine ⟨_, log, hscan, fun moments c hc => ?_⟩
  obtain hpending | ⟨now, hnow, p, hp, hchunks⟩ := ChunkStream.mem_answersOver hc
  · exact absurd hpending List.not_mem_nil
  obtain ⟨b, hread, hle, hpath, hcites, hsize⟩ := FileReport.fileSize_of_mem_ofPath hchunks
  have hroot : s.scope.root = o.root := by rw [scope, hoptions]
  have hle : b.length ≤ o.maxFileSize := hlimit ▸ hle
  have hsurplus := b.surplus_le
  refine ⟨now, hnow, p, hp, b, hread, hroot ▸ hpath, hcites, hle, hsize, ?_, ?_, by omega⟩
  · rw [← Bytes.surplus_eq_zero_iff, hsize]
    omega
  · intro htext
    rw [hsize, Bytes.surplus_of_decode? htext, Nat.add_zero]

/-- A repository with one file of three bytes: a comment with a letter that is not in UTF-8. -/
def accentedRepository : FileSystem where
  top := .cons (Bytes.encode "repo") (.directory
    (.cons (Bytes.encode "a.py") (.file [0x23, 0xE9, 0x0A]) .nil)) .nil

/-- Options that let no larger file through. -/
def accentedOptions : ScanOptions where
  root := Path.ofString "repo"
  useTracked := false
  maxFileSize := 3

/-- The pull from the repository gives the file as a whole. -/
theorem answers_accentedRepository : ∃ checked stream log c,
    ofOptions accentedRepository accentedOptions = .ok checked ∧
    checked.scan accentedRepository = .ok (stream, log) ∧
    some c ∈ stream.answersOver [accentedRepository] ∧ c.filepath = "a.py" ∧
    c.metadata.fileSize = 5 := by
  obtain ⟨checked, stream, log, haccepted, hscan, hpull⟩ : ∃ checked stream log,
      ofOptions accentedRepository accentedOptions = .ok checked ∧
      checked.scan accentedRepository = .ok (stream, log) ∧
      (stream.next accentedRepository).chunk?.map (fun c => (c.filepath, c.metadata.fileSize))
        = some ("a.py", 5) :=
    ⟨_, _, _, rfl, rfl, by decide +kernel⟩
  obtain ⟨c, hc, hfields⟩ := Option.map_eq_some_iff.mp hpull
  obtain ⟨hpath, hsize⟩ := Prod.mk.inj hfields
  refine ⟨checked, stream, log, c, haccepted, hscan, ?_, hpath, hsize⟩
  rw [ChunkStream.answersOver, hc]
  exact List.mem_cons_self

/-- The file has a broken part of one byte, so its chunk records two bytes too many. -/
theorem recorded_sizes_accentedRepository : ∃ checked stream log c b,
    ofOptions accentedRepository accentedOptions = .ok checked ∧
    { checked with tracked := Tracked.ofIndex }.scan accentedRepository = .ok (stream, log) ∧
    some c ∈ stream.answersOver [accentedRepository] ∧ c.Cites b ∧ b.length ≤ 3 ∧
    c.metadata.fileSize = b.length + (b.brokenParts.map fun part => 3 - part.length).sum ∧
    ¬ ∀ part ∈ b.brokenParts, part.length = 3 := by
  obtain ⟨checked, stream, log, c, haccepted, hscan, hmem, -, hsize⟩ := answers_accentedRepository
  have htracked : { checked with tracked := Tracked.ofIndex } = checked := by
    rw [← tracked_of_ofOptions haccepted]
  obtain ⟨stream', log', hscan', hall⟩ := recorded_sizes haccepted Tracked.ofIndex
  have hsame := hscan'
  rw [htracked, hscan] at hsame
  obtain ⟨rfl, rfl⟩ := Prod.mk.inj (Except.ok.inj hsame)
  obtain ⟨now, -, p, -, b, -, -, hcites, hle, hsum, hiff, -, -⟩ := hall _ c hmem
  have hle : b.length ≤ 3 := hle
  refine ⟨checked, stream, log, c, b, haccepted, hscan', hmem, hcites, hle, hsum, ?_⟩
  rw [← hiff]
  omega

/-- The chunk of the file says that the file has five bytes, which is more than the limit. -/
theorem fileSize_accentedRepository : ∃ checked stream log c b,
    ofOptions accentedRepository accentedOptions = .ok checked ∧
    checked.scan accentedRepository = .ok (stream, log) ∧
    some c ∈ stream.answersOver [accentedRepository] ∧
    accentedRepository.read (accentedOptions.root.join (Path.ofString c.filepath)) = .ok b ∧
    c.metadata.fileSize ≠ b.length ∧ accentedOptions.maxFileSize < c.metadata.fileSize := by
  obtain ⟨checked, stream, log, c, haccepted, hscan, hmem, hpath, hsize⟩ :=
    answers_accentedRepository
  refine ⟨checked, stream, log, c, [0x23, 0xE9, 0x0A], haccepted, hscan, hmem, ?_, ?_, ?_⟩
  · rw [hpath]
    decide +kernel
  · rw [hsize]
    decide
  · rw [hsize]
    decide

end Scanner

end SourceChunks
