import SourceChunks.CommandLine.Session
import SourceChunks.Proofs.Ignore
import SourceChunks.Proofs.Pipeline.Offering
import SourceChunks.Proofs.Registry
import SourceChunks.Proofs.Scan.Undisturbed

/-!
# What a session does to the files

A session checks its options, opens its output and then scans, in this order, so a session that is
refused has changed nothing.  One that is not refused writes a line for each chunk that its pulls
give, and nothing else.  If its output is a file, the tree changes under the scan: the output may
even be a candidate path itself.  A file that the scan does not read cannot disturb it
(`finds_file`), so what is written is what the same session would print, provided that a session
which prints does not read the file either (`session_effects`).  This proviso is needed: an output
that was a source file may have outgrown the size limit by the time the scan comes to it
(`session_outgrows_limit`).
-/

namespace SourceChunks

/-- Does the next pull read the file at a location? -/
def Exchange.Reads {σ : Type} (sink : Sink σ) (x : Exchange σ) (l : Location) : Prop :=
  ∃ p ∈ x.stream.looked (sink.files x.state),
    x.stream.scope.filter.isEligible (sink.files x.state) p = true ∧
      (sink.files x.state).locate p = .ok l

instance {σ : Type} (sink : Sink σ) (x : Exchange σ) (l : Location) : Decidable (x.Reads sink l) :=
  inferInstanceAs (Decidable (∃ p ∈ _, _ ∧ _))

namespace CommandLine

open FileSystem

variable {fs opened : FileSystem} {d : Destination} {l : Location} {s : Settings}
  {scanner : Scanner} {stream : ChunkStream} {log : List LogLine}

/-! ### Options -/

/-- **Settings are rejected** for one of four reasons. -/
inductive Settings.Rejected (s : Settings) (fs : FileSystem) : Prop
  | root (h : fs.isDirectory s.repoPath = false)
  | fileSize (h : s.maxFileSize = 0)
  | blank (pattern : String) (hmem : pattern ∈ s.ignore)
      (h : ScanOptions.isBlankText pattern = true)
  | malformed (pattern : String) (hmem : pattern ∈ s.ignore) (failure : IgnorePattern.Failure)
      (h : IgnorePattern.ofString pattern = .error failure)

theorem ofPatterns_eq_ok_iff :
    (∃ filter, PathFilter.ofPatterns s.repoPath s.ignore s.maxFileSize = .ok filter) ↔
      ∀ pattern ∈ s.ignore, ∃ one, IgnorePattern.ofString pattern = .ok one := by
  rw [PathFilter.exists_ofPatterns_iff]
  simp only [IgnorePattern.exists_ofString_iff]

/-- **Settings are accepted if and only if they are not rejected.** -/
theorem exists_ofOptions_iff :
    (∃ scanner, Scanner.ofOptions fs s.scanOptions = .ok scanner) ↔ ¬s.Rejected fs := by
  have hchunker : s.scanOptions.chunker.problem? = none := rfl
  constructor
  · rintro ⟨scanner, haccepted⟩ hrejected
    obtain ⟨-, hproblem, hfilter⟩ := Scanner.ofOptions_eq_ok haccepted
    have hpatterns := ofPatterns_eq_ok_iff.mp ⟨_, hfilter⟩
    unfold ScanOptions.problem? at hproblem
    split_ifs at hproblem with hroot hsize hblank
    cases hrejected with
    | root h =>
      change fs.isDirectory s.scanOptions.root = false at h
      simp [h] at hroot
    | fileSize h => exact hsize h
    | blank pattern hmem h => exact hblank (List.any_eq_true.mpr ⟨pattern, hmem, h⟩)
    | malformed pattern hmem failure h =>
      obtain ⟨one, hone⟩ := hpatterns pattern hmem
      rw [h] at hone
      cases hone
  · intro hrejected
    have hroot : fs.isDirectory s.scanOptions.root = true := by
      by_contra h
      exact hrejected (.root (Bool.eq_false_of_not_eq_true h))
    have hsize : s.scanOptions.maxFileSize ≠ 0 := fun h => hrejected (.fileSize h)
    have hblank : s.scanOptions.ignore.any ScanOptions.isBlankText = false := by
      rw [List.any_eq_false]
      intro pattern hmem h
      exact hrejected (.blank pattern hmem h)
    have hproblem : s.scanOptions.problem? fs = none := by
      simp [ScanOptions.problem?, hroot, hsize, hblank, hchunker]
    obtain ⟨filter, hfilter⟩ : ∃ filter, PathFilter.ofPatterns s.repoPath s.ignore s.maxFileSize
        = .ok filter := by
      refine ofPatterns_eq_ok_iff.mpr fun pattern hmem => ?_
      cases hread : IgnorePattern.ofString pattern with
      | error failure => exact absurd (.malformed pattern hmem failure hread) hrejected
      | ok one => exact ⟨one, rfl⟩
    refine ⟨{ options := s.scanOptions, filter }, ?_⟩
    have hfilter' : PathFilter.ofPatterns s.scanOptions.root s.scanOptions.ignore
        s.scanOptions.maxFileSize = .ok filter := hfilter
    simp [Scanner.ofOptions, hroot, hproblem, hfilter']

/-! ### Lines -/

/-- The sink of a session. -/
def lineSink (d : Destination) : Sink (JsonLines.State Console) :=
  JsonLines.sink (Console.writer d) Console.files

/-- A session before its first pull. -/
def start (stream : ChunkStream) (opened : FileSystem) : Exchange (JsonLines.State Console) :=
  ⟨stream, { writer := { files := opened } }⟩

/-- The lines of some chunks. -/
def linesOfChunks (cs : List Chunk) : Bytes := cs.flatMap Json.chunkLine

theorem chunkLine_ne_nil (c : Chunk) : Json.chunkLine c ≠ [] := by simp [Json.chunkLine]

/-- A console takes a line at once. -/
theorem write_console (d : Destination) (state : JsonLines.State Console) (c : Chunk) :
    (lineSink d).write state c
      = (none, ⟨state.writer.write d (Json.chunkLine c), state.written + 1⟩) := by
  obtain ⟨b, rest, hline⟩ := List.exists_cons_of_ne_nil (chunkLine_ne_nil c)
  have hall : (Console.writer d).writeAll state.writer (Json.chunkLine c)
      = (none, state.writer.write d (Json.chunkLine c)) := by
    rw [hline, ByteWriter.writeAll, List.length_cons, ByteWriter.writeAllWith]
    · simp [Console.writer, ByteWriter.writeAllWith]
    · simp
  simp only [lineSink, JsonLines.sink, JsonLines.write, hall]
  rfl

theorem refusal?_lineSink (x : Exchange (JsonLines.State Console)) :
    x.refusal? (lineSink d) = none := by
  rw [Exchange.refusal?]
  cases x.chunk? (lineSink d) with
  | none => rfl
  | some c => rw [Option.bind_some, write_console]

/-- Lines that are printed leave the files alone. -/
theorem offerAll_standardOutput (state : JsonLines.State Console) (cs : List Chunk) :
    ((lineSink .standardOutput).offerAll state cs).writer.files = state.writer.files ∧
    ((lineSink .standardOutput).offerAll state cs).writer.standardOutput
      = state.writer.standardOutput ++ linesOfChunks cs := by
  induction cs generalizing state with
  | nil => exact ⟨rfl, by simp [linesOfChunks, Sink.offerAll]⟩
  | cons c cs ih =>
    obtain ⟨hfiles, houtput⟩ := ih ((lineSink .standardOutput).write state c).2
    rw [write_console] at hfiles houtput
    rw [Sink.offerAll, List.foldl_cons, ← Sink.offerAll, write_console, hfiles, houtput]
    refine ⟨rfl, ?_⟩
    simp [linesOfChunks, Console.write, Console.standardOutput]

/-- Lines that are written to a file are all that it holds in the end. -/
theorem offerAll_file (hroom : fs.HasRoomAt l) {state : JsonLines.State Console} {contents : Bytes}
    (hstate : state.writer.files = fs.fill l contents) (cs : List Chunk) :
    ((lineSink (.file l)).offerAll state cs).writer.files
      = fs.fill l (contents ++ linesOfChunks cs) ∧
    ((lineSink (.file l)).offerAll state cs).writer.printed = state.writer.printed := by
  induction cs generalizing state contents with
  | nil =>
    rw [linesOfChunks, List.flatMap_nil, List.append_nil]
    exact ⟨hstate, rfl⟩
  | cons c cs ih =>
    have hnext : ((lineSink (.file l)).write state c).2.writer.files
        = fs.fill l (contents ++ Json.chunkLine c) := by
      rw [write_console]
      show state.writer.files.append l _ = _
      rw [hstate, hroom.append_fill]
    obtain ⟨hfiles, hprinted⟩ := ih hnext
    rw [Sink.offerAll, List.foldl_cons, ← Sink.offerAll, hfiles, hprinted, write_console]
    refine ⟨?_, rfl⟩
    rw [linesOfChunks, linesOfChunks, List.flatMap_cons, List.append_assoc]

/-! ### The files at each pull -/

theorem files_start (stream : ChunkStream) (opened : FileSystem) :
    (start stream opened).state.writer.files = opened := rfl

/-- What is printed leaves the files alone. -/
theorem files_after_standardOutput (stream : ChunkStream) (fs : FileSystem) (k : Nat) :
    (lineSink .standardOutput).files
      ((start stream fs).after (lineSink .standardOutput) k).state = fs := by
  rw [Exchange.state_after]
  exact (offerAll_standardOutput _ _).1

/-- What is written so far is what the output holds. -/
theorem files_after_file (stream : ChunkStream) (hroom : fs.HasRoomAt l) (k : Nat) :
    (lineSink (.file l)).files ((start stream (fs.fill l [])).after (lineSink (.file l)) k).state
      = fs.fill l (linesOfChunks ((start stream (fs.fill l [])).offered (lineSink (.file l)) k)) := by
  rw [Exchange.state_after]
  exact (offerAll_file hroom (files_start stream (fs.fill l [])) _).1

/-! ### Runs -/

/-- **A session succeeds** and offers its output what its pulls give. -/
theorem runInto_of_gives (s : Settings) (shown : List LogLine → List LogLine) (every : Nat)
    (hscan : scanner.scan opened = .ok (stream, log)) {cs : List Chunk}
    (hgives : (start stream opened).Gives (lineSink d) cs) :
    (runInto s shown ⟨scanner, every⟩ opened d).exitCode = 0 ∧
    (runInto s shown ⟨scanner, every⟩ opened d).standardOutput
      = ((lineSink d).offerAll (start stream opened).state cs).writer.standardOutput ∧
    (runInto s shown ⟨scanner, every⟩ opened d).files
      = ((lineSink d).offerAll (start stream opened).state cs).writer.files := by
  obtain ⟨n, hn⟩ := (start stream opened).exists_hasChunks (lineSink d)
  -- a console refuses nothing, so the run goes on until the stream is at its end
  obtain ⟨hresult, hstate⟩ := Pipeline.run_exhausted (p := ⟨scanner, every⟩) hscan hn
    fun k => refusal?_lineSink _
  rw [Exchange.state_after, hn.gives.eq hgives] at hstate
  unfold runInto
  dsimp only
  unfold lineSink at hresult hstate
  unfold start at hresult hstate
  rw [hresult]
  dsimp only
  rw [hstate]
  exact ⟨rfl, rfl, rfl⟩

/-- **A session with some settings reads the file at a location**: as part of what version control
keeps about the repository, or as what a candidate path leads to that is eligible when it is looked
at. -/
inductive Settings.Reads (s : Settings) (fs : FileSystem) (l : Location) : Prop
  | metadata (wanted : s.walkAll = false) (h : Tracked.MetadataAt fs s.repoPath l)
  | candidate {scanner : Scanner} {opened : FileSystem} {d : Destination} {stream : ChunkStream}
      {log : List LogLine} (k : Nat) (haccepted : Scanner.ofOptions fs s.scanOptions = .ok scanner)
      (hopen : openOutput fs s.output = .ok (opened, d))
      (hscan : scanner.scan opened = .ok (stream, log))
      (h : ((start stream opened).after (lineSink d) k).Reads (lineSink d) l)

/-- An accepted scan starts. -/
theorem exists_scan {o : ScanOptions} (haccepted : Scanner.ofOptions fs o = .ok scanner)
    (now : FileSystem) : ∃ stream log, scanner.scan now = .ok (stream, log) := by
  obtain ⟨source, log, hscan⟩ := Scanner.scan_of_accepted haccepted scanner.tracked now
  exact ⟨_, log, hscan⟩

/-- Every pull of a session that prints finds the same. -/
theorem finds_standardOutput (hscope : stream.scope = scanner.scope) (k : Nat) :
    ((start stream fs).after (lineSink .standardOutput) k).Finds (lineSink .standardOutput)
      (scanner.expectedChunks fs) := by
  intro p _
  rw [Exchange.scope_after, files_after_standardOutput]
  show (FileReport.ofPath fs stream.scope p).chunks = _
  rw [hscope, Scanner.chunks_ofPath]

/-- A session that prints and does not read a file has no eligible candidate that leads to it. -/
theorem isEligible_of_not_reads (haccepted : Scanner.ofOptions fs s.scanOptions = .ok scanner)
    (houtput : isStandardOutput s.output = true) (hreads : ¬s.Reads fs l) {p : Path}
    (hp : p ∈ scanner.expectedPaths fs) (hlocate : fs.locate p = .ok l) :
    scanner.filter.isEligible fs p = false := by
  obtain ⟨stream, log, hscan⟩ := exists_scan haccepted fs
  have hstream := Scanner.stream_eq_of_scan hscan
  have hpaths : p ∈ (start stream fs).stream.paths := by
    rw [hstream]
    exact hp
  -- some pull comes to the path, and reads the file if the path is eligible
  obtain ⟨k, hk⟩ : ∃ k, p ∈ ((start stream fs).after (lineSink .standardOutput) k).stream.looked _ :=
    Exchange.exists_looked hpaths
  by_contra heligible
  refine hreads (.candidate k haccepted ?_ hscan ⟨p, hk, ?_, ?_⟩)
  · rw [openOutput, if_pos houtput]
  · rw [Exchange.scope_after, files_after_standardOutput, hstream]
    exact Bool.eq_true_of_not_eq_false heligible
  · rw [files_after_standardOutput]
    exact hlocate

/-- **A file that is not read does not disturb the scan.** -/
theorem finds_file (hfs : fs.WellFormed) (hroom : fs.HasRoomAt l)
    (haccepted : Scanner.ofOptions fs s.scanOptions = .ok scanner)
    (hscope : stream.scope = scanner.scope)
    (hpaths : stream.paths = scanner.expectedPaths (fs.fill l []))
    (hindex : scanner.options.useTracked = true → ¬Tracked.IndexAt fs scanner.options.root l)
    (hprinting : ∀ p ∈ scanner.expectedPaths fs, fs.locate p = .ok l →
      scanner.filter.isEligible fs p = false)
    (hwriting : ∀ k, ¬((start stream (fs.fill l [])).after (lineSink (.file l)) k).Reads
      (lineSink (.file l)) l) (k : Nat) :
    ((start stream (fs.fill l [])).after (lineSink (.file l)) k).Finds (lineSink (.file l))
      (scanner.expectedChunks fs) := by
  set x := (start stream (fs.fill l [])).after (lineSink (.file l)) k with hx
  obtain ⟨contents, hfiles⟩ : ∃ contents,
      (lineSink (.file l)).files x.state = fs.fill l contents :=
    ⟨_, files_after_file stream hroom k⟩
  have hwritten := hroom.writtenAt contents
  have hxscope : x.stream.scope = scanner.scope := by
    rw [hx, Exchange.scope_after]
    exact hscope
  intro p hp
  rw [hxscope, Scanner.chunks_ofPath, hfiles]
  by_cases hlocate : (fs.fill l contents).locate p = .ok l
  · -- the path leads to the output, and gives nothing now as it gave nothing before
    have hnow : scanner.filter.isEligible (fs.fill l contents) p = false := by
      by_contra heligible
      refine hwriting k ⟨p, hp, ?_, ?_⟩
      · rw [← hx, hxscope, hfiles]
        exact Bool.eq_true_of_not_eq_false heligible
      · rw [← hx, hfiles]
        exact hlocate
    have hcandidate : p ∈ scanner.expectedPaths (fs.fill l []) := by
      rw [← hpaths]
      exact Exchange.mem_paths_of_looked (hx ▸ hp)
    have hroot : fs.isDirectory scanner.options.root := by
      rw [(Scanner.ofOptions_eq_ok haccepted).1]
      exact Scanner.isDirectory_of_ofOptions haccepted
    have hbefore : scanner.expectedChunks fs p = [] := by
      by_cases hsome : ∃ l', fs.locate p = .ok l'
      · obtain ⟨l', hl'⟩ := hsome
        have hl : l' = l := Except.ok.inj ((hwritten.locate hl').symm.trans hlocate)
        rw [hl] at hl'
        -- opening the output adds no candidate but paths that led nowhere before
        rcases Scanner.mem_expectedPaths_cases (hroom.writtenAt []) hfs
          (hroom.wellFormed_fill hfs []) hroot (Scanner.tracked_of_ofOptions haccepted) hindex
          hcandidate with hmem | hnone
        · exact Scanner.expectedChunks_of_not_isEligible (hprinting p hmem hl')
        · exact absurd hl' (hnone l)
      · exact Scanner.expectedChunks_of_not_located fun l' hl' => hsome ⟨l', hl'⟩
    rw [Scanner.expectedChunks_of_not_isEligible hnow, hbefore]
  · exact Scanner.expectedChunks_of_writtenAt hwritten hlocate

/-- What is left behind by a session that has written some lines, given where they went. -/
def Delivered (fs : FileSystem) (lines : Bytes) (o : Outcome) : Destination → Prop
  | .standardOutput => o.standardOutput = lines ∧ o.files = fs
  | .file l => o.standardOutput = [] ∧ (o.files.get? l).map contentsOf = some (.ok lines) ∧
      o.files.workingDirectory = fs.workingDirectory ∧
      ∀ l' ≠ l, (o.files.get? l').map Entry.surface = (fs.get? l').map Entry.surface

/-- The same settings, with the standard output as the output. -/
def Settings.toStandardOutput (s : Settings) : Settings := { s with output := Path.ofString "-" }

theorem openOutput_eq_file (hfs : fs.WellFormed) {output : Path}
    (h : openOutput fs output = .ok (opened, .file l)) :
    opened = fs.fill l [] ∧ fs.HasRoomAt l := by
  unfold openOutput at h
  split_ifs at h
  · cases h
  cases hcreate : fs.create output with
  | error e =>
    rw [hcreate] at h
    cases h
  | ok created =>
    obtain ⟨after, place⟩ := created
    rw [hcreate] at h
    cases h
    exact create_eq_ok hfs hcreate

theorem openOutput_eq_standardOutput {output : Path}
    (h : openOutput fs output = .ok (opened, .standardOutput)) : fs = opened := by
  unfold openOutput at h
  split_ifs at h
  · exact (Prod.mk.inj (Except.ok.inj h)).1
  · cases hcreate : fs.create output with
    | error e =>
      rw [hcreate] at h
      cases h
    | ok created =>
      rw [hcreate] at h
      cases h

theorem openOutput_toStandardOutput (s : Settings) (fs : FileSystem) :
    openOutput fs s.toStandardOutput.output = .ok (fs, .standardOutput) := rfl

/-- A session whose settings are accepted runs a pipeline. -/
theorem runWith_eq_runInto (haccepted : Scanner.ofOptions fs s.scanOptions = .ok scanner)
    (hopen : openOutput fs s.output = .ok (opened, d)) (level? : Option String) :
    ∃ shown, runWith s fs level? = runInto s shown ⟨scanner, s.progressEvery⟩ opened d := by
  refine ⟨List.filter (·.isVisible (visibleRank s level?)), ?_⟩
  simp only [runWith, Pipeline.ofOptions, haccepted, hopen]

/-- **A session that is accepted writes what its pulls give**, and nothing else. -/
theorem runWith_of_accepted (hfs : fs.WellFormed)
    (haccepted : Scanner.ofOptions fs s.scanOptions = .ok scanner)
    (hopen : openOutput fs s.output = .ok (opened, d)) (level? : Option String)
    (hscan : scanner.scan opened = .ok (stream, log)) {cs : List Chunk}
    (hgives : (start stream opened).Gives (lineSink d) cs) :
    (runWith s fs level?).exitCode = 0 ∧
      Delivered fs (linesOfChunks cs) (runWith s fs level?) d := by
  obtain ⟨shown, hrun⟩ := runWith_eq_runInto haccepted hopen level?
  obtain ⟨hexit, houtput, hfiles⟩ := runInto_of_gives s shown s.progressEvery hscan hgives
  rw [hrun]
  refine ⟨hexit, ?_⟩
  cases d with
  | standardOutput =>
    obtain rfl := openOutput_eq_standardOutput hopen
    obtain ⟨hsame, hprinted⟩ := offerAll_standardOutput (start stream fs).state cs
    exact ⟨houtput.trans hprinted, hfiles.trans hsame⟩
  | file l =>
    obtain ⟨rfl, hroom⟩ := openOutput_eq_file hfs hopen
    obtain ⟨hlines, hprinted⟩ := offerAll_file hroom (files_start stream (fs.fill l [])) cs
    rw [List.nil_append] at hlines
    refine ⟨?_, ?_, ?_, ?_⟩
    · rw [houtput, Console.standardOutput, hprinted]
      rfl
    · rw [hfiles, hlines, hroom.get?_fill, Option.map_some, contentsOf_refilled]
    · rw [hfiles, hlines]
      rfl
    · rw [hfiles, hlines]
      exact (hroom.writtenAt _).elsewhere

/-- **What a session prints** is what the scan gives. -/
theorem eq_chunks_standardOutput (hscan : scanner.scan fs = .ok (stream, log)) {cs : List Chunk}
    (hgives : (start stream fs).Gives (lineSink .standardOutput) cs) : cs = scanner.chunks fs := by
  obtain rfl := Scanner.stream_eq_of_scan hscan
  rw [hgives.eq_remaining (finds_standardOutput rfl), Scanner.chunks_eq]
  rfl

/-- **A session that prints** prints the lines of its scan and changes no file. -/
theorem delivered_standardOutput (hfs : fs.WellFormed)
    (haccepted : Scanner.ofOptions fs s.scanOptions = .ok scanner)
    (hopen : openOutput fs s.output = .ok (fs, .standardOutput)) (level? : Option String) :
    Delivered fs (linesOfChunks (scanner.chunks fs)) (runWith s fs level?) .standardOutput := by
  obtain ⟨stream, log, hscan⟩ := exists_scan haccepted fs
  obtain ⟨n, hn⟩ := (start stream fs).exists_hasChunks (lineSink .standardOutput)
  rw [← eq_chunks_standardOutput hscan hn.gives]
  exact (runWith_of_accepted hfs haccepted hopen level? hscan hn.gives).2

/-- **A file that neither the session nor the same session with the standard output reads** gets
what the scan gives. -/
theorem eq_chunks_file (hfs : fs.WellFormed)
    (haccepted : Scanner.ofOptions fs s.scanOptions = .ok scanner)
    (hopen : openOutput fs s.output = .ok (opened, .file l))
    (hscan : scanner.scan opened = .ok (stream, log)) {cs : List Chunk}
    (hgives : (start stream opened).Gives (lineSink (.file l)) cs) (hwriting : ¬s.Reads fs l)
    (hprinting : ¬s.toStandardOutput.Reads fs l) : cs = scanner.chunks fs := by
  obtain ⟨rfl, hroom⟩ := openOutput_eq_file hfs hopen
  obtain rfl := Scanner.stream_eq_of_scan hscan
  obtain ⟨hoptions, -, -⟩ := Scanner.ofOptions_eq_ok haccepted
  have hroot : fs.isDirectory scanner.options.root := by
    rw [hoptions]
    exact Scanner.isDirectory_of_ofOptions haccepted
  have hindex : scanner.options.useTracked = true → ¬Tracked.IndexAt fs scanner.options.root l := by
    rw [hoptions]
    intro hwanted hat
    exact hwriting (.metadata (by simpa [Settings.scanOptions] using hwanted) hat.metadataAt)
  have hfinds := finds_file hfs hroom haccepted rfl rfl hindex
    (fun p hp hlocate => isEligible_of_not_reads (s := s.toStandardOutput) haccepted rfl hprinting
      hp hlocate)
    (fun k hreads => hwriting (.candidate k haccepted hopen hscan hreads))
  -- the candidates of the tree with the output in it give what those of the tree without it give
  have hcandidates := Scanner.flatMap_expectedPaths (hroom.writtenAt []) hfs
    (hroom.wellFormed_fill hfs []) hroot (Scanner.tracked_of_ofOptions haccepted) hindex
    fun _ hnone => Scanner.expectedChunks_of_not_located (s := scanner) hnone
  rw [hgives.eq_remaining hfinds, Scanner.chunks_eq, ← hcandidates]
  rfl

/-- **A session that is refused changes nothing.** -/
theorem runWith_of_refused (h : s.Rejected fs ∨ ∃ e, openOutput fs s.output = .error e)
    (level? : Option String) :
    (runWith s fs level?).exitCode ≠ 0 ∧ (runWith s fs level?).files = fs := by
  unfold runWith Pipeline.ofOptions
  dsimp only
  cases haccepted : Scanner.ofOptions fs s.scanOptions with
  | error e => exact ⟨Nat.one_ne_zero, rfl⟩
  | ok scanner =>
    have hopen := h.resolve_left (exists_ofOptions_iff.mp ⟨scanner, haccepted⟩)
    obtain ⟨e, he⟩ := hopen
    rw [he]
    exact ⟨Nat.one_ne_zero, rfl⟩

/-- **A session is atomic on its settings and writes only its output.**  If the options are rejected
or the output cannot be opened, it fails and no file is touched.  Otherwise it succeeds, the output
holds the lines of the chunks that the pulls of its scan give, in order, and everything else in the
tree is as it was.  These are the lines that the same session prints with the standard output,
unless one of the two sessions reads the output. -/
theorem session_effects {args : List String} (hrun : request? args = some (.run s))
    (hfs : fs.WellFormed) (level? : Option String) :
    (s.Rejected fs ∨ (∃ e, openOutput fs s.output = .error e) →
      (session args fs level?).exitCode ≠ 0 ∧ (session args fs level?).files = fs) ∧
    (¬s.Rejected fs → ∀ opened d, openOutput fs s.output = .ok (opened, d) →
      ∃ scanner stream log cs, Scanner.ofOptions fs s.scanOptions = .ok scanner ∧
        scanner.scan opened = .ok (stream, log) ∧
        (start stream opened).Gives (lineSink d) cs ∧
        (session args fs level?).exitCode = 0 ∧
        Delivered fs (linesOfChunks cs) (session args fs level?) d ∧
        (runWith s.toStandardOutput fs level?).standardOutput
          = linesOfChunks (scanner.chunks fs) ∧
        ((∀ l, d = .file l → ¬s.Reads fs l ∧ ¬s.toStandardOutput.Reads fs l) →
          cs = scanner.chunks fs)) := by
  have hsession : session args fs level? = runWith s fs level? := by rw [session, hrun]
  rw [hsession]
  refine ⟨fun hrefused => runWith_of_refused hrefused level?, ?_⟩
  intro hrejected opened d hopen
  obtain ⟨scanner, haccepted⟩ := exists_ofOptions_iff.mpr hrejected
  obtain ⟨stream, log, hscan⟩ := exists_scan haccepted opened
  obtain ⟨n, hn⟩ := (start stream opened).exists_hasChunks (lineSink d)
  obtain ⟨hexit, hdelivered⟩ := runWith_of_accepted hfs haccepted hopen level? hscan hn.gives
  refine ⟨scanner, stream, log, _, haccepted, hscan, hn.gives, hexit, hdelivered, ?_, ?_⟩
  · exact (delivered_standardOutput (s := s.toStandardOutput) hfs haccepted
      (openOutput_toStandardOutput s fs) level?).1
  · intro hreads
    cases d with
    | standardOutput =>
      obtain rfl := openOutput_eq_standardOutput hopen
      exact eq_chunks_standardOutput hscan hn.gives
    | file l =>
      obtain ⟨hwriting, hprinting⟩ := hreads l rfl
      exact eq_chunks_file hfs haccepted hopen hscan hn.gives hwriting hprinting

/-! ### Outputs that are not read -/

/-- A session reads nothing at a location that no candidate with a language leads to once the output
is open. -/
theorem Settings.not_reads (hfs : fs.WellFormed) (hopen : openOutput fs s.output = .ok (opened, d))
    (hmetadata : s.walkAll = false → ¬Tracked.MetadataAt fs s.repoPath l)
    (h : ∀ scanner, Scanner.ofOptions fs s.scanOptions = .ok scanner →
      ∀ p ∈ scanner.expectedPaths opened, (Registry.builtin.resolve? p).isSome →
        opened.locate p ≠ .ok l) : ¬s.Reads fs l := by
  intro hreads
  cases hreads with
  | metadata hwanted hat => exact hmetadata hwanted hat
  | @candidate scanner opened' d' stream log k haccepted hopen' hscan hreads =>
    obtain ⟨rfl, rfl⟩ := Prod.mk.inj (Except.ok.inj (hopen'.symm.trans hopen))
    obtain rfl := Scanner.stream_eq_of_scan hscan
    obtain ⟨p, hp, heligible, hlocate⟩ := hreads
    refine h scanner haccepted p (Exchange.mem_paths_of_looked hp)
      (PathFilter.isSome_of_isEligible heligible) ?_
    -- what is written meanwhile does not change where the path leads
    cases d' with
    | standardOutput =>
      rw [files_after_standardOutput] at hlocate
      exact hlocate
    | file place =>
      obtain ⟨rfl, hroom⟩ := openOutput_eq_file hfs hopen
      rw [files_after_file _ hroom] at hlocate
      exact (hroom.writtenAt_fill _ []).locate hlocate

/-- A repository with one source file. -/
def smallRepository : FileSystem where
  top := .cons (Bytes.encode "repo") (.directory
    (.cons (Bytes.encode "a.py") (.file (Bytes.encode "def f():\n    pass\n")) .nil)) .nil

/-- Arguments that ask for an output inside of the repository. -/
def insideArguments : List String :=
  ["--repo-path", "repo", "-o", "repo/chunks.jsonl", "--no-vcs"]

/-- What they ask for. -/
def insideSettings : Settings where
  repoPath := Path.ofString "repo"
  output := Path.ofString "repo/chunks.jsonl"
  walkAll := true

/-- Where the output is. -/
def insideLocation : Location := [Bytes.encode "repo", Bytes.encode "chunks.jsonl"]

theorem accepted_smallRepository : ¬insideSettings.Rejected smallRepository :=
  exists_ofOptions_iff.mp ⟨_, rfl⟩

theorem openOutput_smallRepository :
    ∃ opened, openOutput smallRepository insideSettings.output
      = .ok (opened, .file insideLocation) :=
  ⟨_, rfl⟩

/-- The output becomes a candidate path, but one without a language. -/
theorem not_reads_smallRepository : ¬insideSettings.Reads smallRepository insideLocation ∧
    ¬insideSettings.toStandardOutput.Reads smallRepository insideLocation := by
  have hfs : smallRepository.WellFormed := by decide
  obtain ⟨opened, hopen⟩ := openOutput_smallRepository
  obtain ⟨rfl, hroom⟩ := openOutput_eq_file hfs hopen
  have hroot : smallRepository.locate insideSettings.repoPath = .ok [Bytes.encode "repo"] := rfl
  have hlanguage : (Registry.builtin.resolve?
      (insideSettings.repoPath.descend [Bytes.encode "chunks.jsonl"])).isSome = false := by
    rw [Registry.isSome_resolve?_builtin]
    decide +kernel
  -- of the paths of a walk, only the one that is spelled so leads to the output
  have hwalk : ∀ now : FileSystem, now.WellFormed →
      now.locate insideSettings.repoPath = .ok [Bytes.encode "repo"] →
      ∀ scanner, Scanner.ofOptions smallRepository insideSettings.scanOptions = .ok scanner →
      ∀ p ∈ scanner.expectedPaths now, (Registry.builtin.resolve? p).isSome →
        now.locate p ≠ .ok insideLocation := by
    intro now hnow hlocate scanner haccepted p hp hsome hp'
    obtain ⟨hoptions, -, -⟩ := Scanner.ofOptions_eq_ok haccepted
    have hpaths : scanner.expectedPaths now
        = now.walk scanner.filter.isIgnored insideSettings.repoPath := by
      unfold Scanner.expectedPaths
      rw [hoptions]
      rfl
    rw [hpaths] at hp
    obtain ⟨more, rfl, hmore⟩ := locate_of_mem_walk hnow hlocate hp
    obtain rfl : more = [Bytes.encode "chunks.jsonl"] := by
      rw [hp'] at hmore
      exact (List.cons.inj (Except.ok.inj hmore)).2.symm
    rw [hlanguage] at hsome
    cases hsome
  refine ⟨Settings.not_reads hfs hopen (fun hwanted => ?_) ?_,
    Settings.not_reads hfs (openOutput_toStandardOutput _ _) (fun hwanted => ?_) ?_⟩
  · cases hwanted
  · exact hwalk _ (hroom.wellFormed_fill hfs []) ((hroom.writtenAt []).locate hroot)
  · cases hwanted
  · exact hwalk smallRepository hfs hroot

/-- What the source file gives. -/
def functionChunk : Chunk where
  id := "93dad5c3deca956a"
  filepath := "a.py"
  content := "def f():\n    pass"
  language := "python"
  kind := .function
  name := some "f"
  lineStart := 1
  lineEnd := 2
  metadata := {
    imports := []
    fileSize := 18
    chunkSize := some 17
    nodeType := some "function_definition" }

theorem chunks_smallRepository :
    ∃ scanner, Scanner.ofOptions smallRepository insideSettings.scanOptions = .ok scanner ∧
      scanner.chunks smallRepository = [functionChunk] :=
  ⟨_, rfl, by decide +kernel⟩

/-- A run over a repository with its output inside of it. -/
theorem session_effects_smallRepository :
    request? insideArguments = some (.run insideSettings) ∧ smallRepository.WellFormed ∧
    ∃ scanner, Scanner.ofOptions smallRepository insideSettings.scanOptions = .ok scanner ∧
      scanner.chunks smallRepository = [functionChunk] ∧
      (session insideArguments smallRepository none).exitCode = 0 ∧
      Delivered smallRepository (linesOfChunks [functionChunk])
        (session insideArguments smallRepository none) (.file insideLocation) ∧
      (runWith insideSettings.toStandardOutput smallRepository none).standardOutput
        = linesOfChunks [functionChunk] := by
  have hrun : request? insideArguments = some (.run insideSettings) := by decide +kernel
  have hfs : smallRepository.WellFormed := by decide
  obtain ⟨opened, hopen⟩ := openOutput_smallRepository
  obtain ⟨scanner, stream, log, cs, haccepted, -, -, hexit, hdelivered, hprinted, hsame⟩ :=
    (session_effects hrun hfs none).2 accepted_smallRepository opened _ hopen
  obtain ⟨scanner', haccepted', hchunks⟩ := chunks_smallRepository
  obtain rfl : scanner' = scanner := Except.ok.inj (haccepted'.symm.trans haccepted)
  have hcs : cs = scanner'.chunks smallRepository := by
    refine hsame fun l hl => ?_
    obtain rfl := Destination.file.inj hl
    exact not_reads_smallRepository
  rw [hcs, hchunks] at hdelivered
  rw [hchunks] at hprinted
  exact ⟨hrun, hfs, scanner', haccepted, hchunks, hexit, hdelivered, hprinted⟩

/-! ### An output that outgrows the size limit -/

/-- A repository with two source files, the second one with some contents. -/
def outgrownWith (contents : Bytes) : FileSystem where
  top := .cons (Bytes.encode "repo") (.directory
    (.cons (Bytes.encode "a.py") (.file (Bytes.encode "def f():\n    pass\n"))
    (.cons (Bytes.encode "z.py") (.file contents) .nil))) .nil

/-- The repository before the session. -/
def outgrownRepository : FileSystem := outgrownWith (Bytes.encode "x = 1\n")

/-- Arguments that ask for the second source file as the output. -/
def outgrownArguments : List String :=
  ["--repo-path", "repo", "--no-vcs", "--max-file-size", "100", "-o", "repo/z.py"]

/-- What they ask for. -/
def outgrownSettings : Settings where
  repoPath := Path.ofString "repo"
  output := Path.ofString "repo/z.py"
  maxFileSize := 100
  walkAll := true

/-- Where the output is. -/
def outgrownLocation : Location := [Bytes.encode "repo", Bytes.encode "z.py"]

/-- What the second source file gives. -/
def assignmentChunk : Chunk where
  id := "f1cbcaa7353ef0e1"
  filepath := "z.py"
  content := "x = 1\n"
  language := "python"
  kind := .moduleFile
  name := some "z.py"
  lineStart := 1
  lineEnd := 2
  metadata := { imports := [], fileSize := 6, lineCount := some 2 }

/-- The candidate paths. -/
def outgrownPaths : List Path := [Path.ofString "repo/a.py", Path.ofString "repo/z.py"]

theorem openOutput_outgrownRepository :
    openOutput outgrownRepository outgrownSettings.output
      = .ok (outgrownWith [], .file outgrownLocation) := rfl

/-- Both source files are candidates, whatever the second one holds. -/
theorem traversal_outgrownWith
    (haccepted : Scanner.ofOptions outgrownRepository outgrownSettings.scanOptions = .ok scanner)
    (contents : Bytes) : scanner.traversal (outgrownWith contents) = outgrownPaths := by
  have hkept : ∀ p ∈ outgrownPaths, scanner.filter.isIgnored p = false := by
    have hfilter : (PathFilter.ofPatterns outgrownSettings.repoPath [] 100).toOption.map
        (fun f => outgrownPaths.all fun p => !f.isIgnored p) = some true := by decide +kernel
    have hread := (Scanner.ofOptions_eq_ok haccepted).2.2
    change PathFilter.ofPatterns outgrownSettings.repoPath [] 100 = _ at hread
    rw [hread] at hfilter
    simpa using Option.some.inj hfilter
  have hbranches : (Directory.cons (Bytes.encode "a.py")
      (.file (Bytes.encode "def f():\n    pass\n"))
      (.cons (Bytes.encode "z.py") (.file contents) .nil)).branches scanner.filter.isIgnored
        (Path.ofString "repo")
      = [(Bytes.encode "a.py", [Path.ofString "repo/a.py"]),
        (Bytes.encode "z.py", [Path.ofString "repo/z.py"])] := by
    have ha : (Path.ofString "repo").join ⟨Bytes.encode "a.py"⟩ = Path.ofString "repo/a.py" := rfl
    have hz : (Path.ofString "repo").join ⟨Bytes.encode "z.py"⟩ = Path.ofString "repo/z.py" := rfl
    simp only [Directory.branches, Entry.filesAt, ha, hz, hkept _ List.mem_cons_self,
      hkept _ (List.mem_cons_of_mem _ List.mem_cons_self)]
    rfl
  rw [Scanner.traversal, (Scanner.ofOptions_eq_ok haccepted).1]
  show walk _ _ (Path.ofString "repo") = _
  -- the entries of the root are in order, so a walk need not sort them
  rw [walk_of_sorted rfl rfl (by rw [hbranches]; decide), hbranches]
  rfl

/-- A session with some scanner, once the output is open. -/
def outgrownStart (scanner : Scanner) : Exchange (JsonLines.State Console) :=
  start ⟨scanner.scope, .traversal, outgrownPaths, [], {}⟩ (outgrownWith [])

theorem scan_outgrownWith
    (haccepted : Scanner.ofOptions outgrownRepository outgrownSettings.scanOptions = .ok scanner) :
    scanner.scan (outgrownWith []) = .ok ((outgrownStart scanner).stream, []) := by
  rw [Scanner.scan, Scanner.candidates, (Scanner.ofOptions_eq_ok haccepted).1,
    traversal_outgrownWith haccepted]
  rfl

/-- The first pull gives the function, whose line is more than the second pull may find. -/
theorem pulls_outgrownRepository : ∃ scanner,
    Scanner.ofOptions outgrownRepository outgrownSettings.scanOptions = .ok scanner ∧
    outgrownPaths.flatMap (scanner.expectedChunks outgrownRepository)
      = [functionChunk, assignmentChunk] ∧
    (outgrownStart scanner).chunk? (lineSink (.file outgrownLocation)) = some functionChunk ∧
    ((outgrownStart scanner).step (lineSink (.file outgrownLocation))).chunk?
      (lineSink (.file outgrownLocation)) = none ∧
    ∀ k < 2, ¬((outgrownStart scanner).after (lineSink (.file outgrownLocation)) k).Reads
      (lineSink (.file outgrownLocation)) outgrownLocation :=
  ⟨_, rfl, by decide +kernel, by decide +kernel, by decide +kernel, by decide +kernel⟩

/-- The session never reads its output. -/
theorem not_reads_outgrownRepository :
    ¬outgrownSettings.Reads outgrownRepository outgrownLocation := by
  obtain ⟨scanner, haccepted, -, -, hsecond, hearly⟩ := pulls_outgrownRepository
  intro hreads
  cases hreads with
  | metadata hwanted => cases hwanted
  | @candidate scanner' opened d stream log k haccepted' hopen hscan hreads =>
    obtain rfl : scanner = scanner' := Except.ok.inj (haccepted.symm.trans haccepted')
    obtain ⟨rfl, rfl⟩ := Prod.mk.inj
      (Except.ok.inj (openOutput_outgrownRepository.symm.trans hopen))
    obtain ⟨rfl, -⟩ := Prod.mk.inj
      (Except.ok.inj ((scan_outgrownWith haccepted).symm.trans hscan))
    by_cases hk : k < 2
    · exact hearly k hk hreads
    · -- no path is left after the second pull
      obtain ⟨k, rfl⟩ : ∃ j, k = j + 2 := ⟨k - 2, by omega⟩
      obtain ⟨p, hp, -⟩ := hreads
      have hleft := Exchange.mem_paths_of_looked
        (x := (outgrownStart scanner).after (lineSink (.file outgrownLocation)) 2) hp
      have hend : ((outgrownStart scanner).after (lineSink (.file outgrownLocation)) 2).stream.paths
          = [] := ChunkStream.paths_eq_nil_of_eq_none hsecond
      rw [hend] at hleft
      cases hleft

/-- **An output that outgrows the size limit.**  The session never reads it, for it is
over the limit when the scan comes to it.  The same session with the standard output does,
and prints a line more. -/
theorem session_outgrows_limit :
    request? outgrownArguments = some (.run outgrownSettings) ∧ outgrownRepository.WellFormed ∧
    ¬outgrownSettings.Rejected outgrownRepository ∧
    openOutput outgrownRepository outgrownSettings.output
      = .ok (outgrownWith [], .file outgrownLocation) ∧
    ¬outgrownSettings.Reads outgrownRepository outgrownLocation ∧
    (session outgrownArguments outgrownRepository none).exitCode = 0 ∧
    ((session outgrownArguments outgrownRepository none).files.get? outgrownLocation).map contentsOf
      = some (.ok (linesOfChunks [functionChunk])) ∧
    (runWith outgrownSettings.toStandardOutput outgrownRepository none).standardOutput
      = linesOfChunks [functionChunk, assignmentChunk] ∧
    linesOfChunks [functionChunk] ≠ linesOfChunks [functionChunk, assignmentChunk] := by
  have hrun : request? outgrownArguments = some (.run outgrownSettings) := by decide +kernel
  have hfs : outgrownRepository.WellFormed := by decide
  obtain ⟨scanner, haccepted, hchunks, hfirst, hsecond, -⟩ := pulls_outgrownRepository
  -- the second pull has passed over the output and found no more paths
  have hgives : (outgrownStart scanner).Gives (lineSink (.file outgrownLocation))
      [functionChunk] := by
    intro k
    cases k with
    | zero => exact hfirst.symm
    | succ k => exact (Exchange.chunk?_after_of_eq_none hsecond k).symm
  obtain ⟨hexit, -, hwritten, -⟩ := runWith_of_accepted hfs haccepted
    openOutput_outgrownRepository none (scan_outgrownWith haccepted) hgives
  obtain ⟨hprinted, -⟩ := delivered_standardOutput (s := outgrownSettings.toStandardOutput) hfs
    haccepted (openOutput_toStandardOutput _ _) none
  have hlisted : scanner.expectedPaths outgrownRepository = outgrownPaths := by
    rw [Scanner.expectedPaths, (Scanner.ofOptions_eq_ok haccepted).1,
      ← traversal_outgrownWith haccepted (Bytes.encode "x = 1\n"), Scanner.traversal,
      (Scanner.ofOptions_eq_ok haccepted).1]
    rfl
  rw [Scanner.chunks_eq, hlisted, hchunks] at hprinted
  refine ⟨hrun, hfs, exists_ofOptions_iff.mp ⟨scanner, haccepted⟩, openOutput_outgrownRepository,
    not_reads_outgrownRepository, ?_, ?_, hprinted, ?_⟩
  · rw [session, hrun]
    exact hexit
  · rw [session, hrun]
    exact hwritten
  · simp [linesOfChunks, chunkLine_ne_nil]

end CommandLine

end SourceChunks
