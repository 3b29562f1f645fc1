import SourceChunks.Pipeline.Sink
import SourceChunks.Scan.Scanner

/-!
# The pipeline

Pulls the chunks of a scan one at a time and offers each to a sink, in order.  A sink whose reader
is gone ends the run quietly; any other refusal is an error that names the chunk.
-/

namespace SourceChunks

/-- Chunks between two progress lines unless options say otherwise. -/
def defaultProgressEvery : Nat := 100

/-- **A pipeline**: a scanner and how often it reports progress; zero means never. -/
structure Pipeline where
  scanner : Scanner
  progressEvery : Nat := defaultProgressEvery

/-- Why a pipeline fails. -/
inductive PipelineError where
  /-- The repository cannot be scanned with these options. -/
  | cannotScan (root : Path) (cause : ScanError)
  /-- The chunker of a scan refuses its settings. -/
  | cannotStart (problem : ChunkerConfig.Problem)
  /-- A chunk was refused. -/
  | cannotWrite (id : String) (cause : WriteError)
deriving DecidableEq, Repr

namespace PipelineError

/-- What failed. -/
def summary : PipelineError → String
  | .cannotScan root _ => "Cannot scan repository " ++ root.display
  | .cannotStart p => "Chunker error: " ++ p.refusal
  | .cannotWrite id _ => "Failed to write chunk " ++ id

/-- Why it failed. -/
def cause : PipelineError → String
  | .cannotScan _ e => e.message
  | .cannotStart p => p.refusal
  | .cannotWrite _ e => e.message

/-- Both on one line. -/
def message (e : PipelineError) : String := e.summary ++ ": " ++ e.cause

end PipelineError

namespace Pipeline

/-- **A pipeline for some options**, which are checked; nothing is read yet. -/
def ofOptions (fs : FileSystem) (o : ScanOptions) (progressEvery : Nat := defaultProgressEvery) :
    Except PipelineError Pipeline :=
  match Scanner.ofOptions fs o with
  | .ok scanner => .ok { scanner, progressEvery }
  | .error e => .error (.cannotScan o.root e)

/-- How far the offering of chunks came. -/
structure Offered (σ : Type) where
  /-- The error that ended it, if one did. -/
  error? : Option PipelineError
  /-- The stream afterwards. -/
  stream : ChunkStream
  /-- Chunks that the sink took. -/
  taken : Nat
  /-- The sink afterwards. -/
  state : σ
  /-- What the log says. -/
  log : List LogLine

/-- The progress line after some chunks, if one is due. -/
def progress (every taken : Nat) : List LogLine :=
  if 0 < every ∧ taken % every = 0 then [⟨.info, "Processed " ++ toString taken ++ " chunks"⟩]
  else []

/-- **Offers the chunks of a stream to a sink**, which has taken `taken` of them before. -/
def offer (sink : Sink σ) (every taken : Nat) (state : σ) (stream : ChunkStream) : Offered σ :=
  match _h : stream.next (sink.files state) with
  | ⟨none, rest, log⟩ => ⟨none, rest, taken, state, log⟩
  | ⟨some c, rest, log⟩ =>
    match sink.write state c with
    | (some .brokenPipe, after) =>
      ⟨none, rest, taken, after,
        log ++ [⟨.debug, "Output closed after " ++ toString taken ++ " chunks"⟩]⟩
    | (some e, after) => ⟨some (.cannotWrite c.id e), rest, taken, after, log⟩
    | (none, after) =>
      let later := offer sink every (taken + 1) after rest
      { later with log := log ++ progress every (taken + 1) ++ later.log }
termination_by (stream.paths.length, stream.pending.length)
decreasing_by exact ChunkStream.next_remaining_lt _h

/-- What the log says about statistics in the end. -/
def closingLines (s : ScanStats) : List LogLine :=
  ⟨.info, "Done: " ++ toString s.files ++ " files, " ++ toString s.chunks ++ " chunks (" ++
    toString s.fallbackFiles ++ " whole-file), " ++ toString s.skipped ++ " skipped, " ++
    toString s.readErrors ++ " read errors"⟩ ::
  s.languages.map fun (language, files) =>
    ⟨.debug, "  " ++ language ++ ": " ++ toString files ++ " files"⟩

/-- How a run ended. -/
structure Ending (σ : Type) where
  /-- Statistics, or the error that ended the run. -/
  result : Except PipelineError ScanStats
  /-- The sink afterwards. -/
  state : σ
  /-- What the log says. -/
  log : List LogLine

/-- **Runs a pipeline** into a sink.  The chunks counted are those that the sink took. -/
def run (p : Pipeline) (sink : Sink σ) (state : σ) : Ending σ :=
  let opening : LogLine := ⟨.info, "Scanning " ++ p.scanner.options.root.display⟩
  match p.scanner.scan (sink.files state) with
  | .error problem => ⟨.error (.cannotStart problem), state, [opening]⟩
  | .ok (stream, log) =>
    let offered := offer sink p.progressEvery 0 state stream
    let log := opening :: log ++ offered.log
    match offered.error? with
    | some e => ⟨.error e, offered.state, log⟩
    | none =>
      let stats := { offered.stream.stats with chunks := offered.taken }
      ⟨.ok stats, offered.state, log ++ closingLines stats⟩

end Pipeline

end SourceChunks
