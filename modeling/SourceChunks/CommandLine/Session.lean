import SourceChunks.CommandLine.Arguments

/-!
# Sessions

One run of the command, from arguments and files to exit code, output, log and files.  Options are
checked before the output is opened, and the output is opened before anything is scanned.
-/

namespace SourceChunks.CommandLine

/-- The name and version of the command. -/
def versionText : String := "repo-ingest 0.1.1\n"

/-- What the command says about itself. -/
def helpText : String := joinLines [
  "Split a repository into structural code chunks (JSON lines)",
  "",
  "Usage: repo-ingest [OPTIONS]",
  "",
  "Options:",
  "      --repo-path <REPO_PATH>            Repository root to scan [default: ..]",
  "  -o, --output <OUTPUT>                  Output file (`-` for stdout) [default: chunks.jsonl]",
  "      --ignore <IGNORE>...               Extra path segments or globs to ignore",
  "      --max-file-size <MAX_FILE_SIZE>    Skip files larger than this many bytes [default: 1048576]",
  "      --no-vcs                           Walk the whole tree even inside a git repository",
  "      --progress-every <PROGRESS_EVERY>  Log progress every N chunks (0 disables) [default: 100]",
  "  -v, --verbose                          Enable verbose logging",
  "  -q, --quiet                            Quiet mode: log only warnings/errors",
  "  -h, --help                             Print help",
  "  -V, --version                          Print version",
  ""]

/-! ### Log levels -/

/-- The rank up to which lines are shown if a level is set by name.  An empty setting shows errors,
and an unknown name nothing. -/
def rankNamed (name : String) : Nat :=
  match name.toLower with
  | "" | "error" => LogLevel.error.rank
  | "warn" => LogLevel.warn.rank
  | "info" => LogLevel.info.rank
  | "debug" => LogLevel.debug.rank
  | "trace" => LogLevel.trace.rank
  | _ => 0

/-- **The rank up to which lines are shown**: `--quiet` decides before `--verbose`, both before the
level set from outside. -/
def visibleRank (s : Settings) (level? : Option String) : Nat :=
  if s.quiet then LogLevel.warn.rank
  else if s.verbose then LogLevel.debug.rank
  else match level? with
    | some name => rankNamed name
    | none => LogLevel.info.rank

/-! ### Output -/

/-- Where the lines of chunks go. -/
inductive Destination where
  | standardOutput
  | file (location : Location)
deriving DecidableEq, Repr

/-- What a run changes: the files, and the pieces of the standard output, last first. -/
structure Console where
  files : FileSystem
  printed : List Bytes := []

namespace Console

/-- Writes bytes to a destination. -/
def write (d : Destination) (c : Console) (bytes : Bytes) : Console :=
  match d with
  | .standardOutput => { c with printed := bytes :: c.printed }
  | .file l => { c with files := c.files.append l bytes }

/-- A console as a writer of bytes, which takes all it is offered. -/
def writer (d : Destination) : ByteWriter Console where
  write c bytes := (.ok bytes.length, c.write d bytes)
  flush c := (none, c)

/-- The bytes of the standard output. -/
def standardOutput (c : Console) : Bytes := c.printed.reverse.flatten

end Console

/-- Does a path stand for the standard output? -/
def isStandardOutput (p : Path) : Bool := p.bytes == [0x2D]

/-- **Opens the output** of a run. -/
def openOutput (fs : FileSystem) (output : Path) : Except FileError (FileSystem × Destination) :=
  if isStandardOutput output then .ok (fs, .standardOutput)
  else (fs.create output).map fun (fs, l) => (fs, .file l)

/-! ### Runs -/

/-- Why a session fails. -/
inductive Failure where
  /-- The output cannot be opened. -/
  | cannotOpen (output : Path) (error : FileError)
  /-- The pipeline fails. -/
  | pipeline (error : PipelineError)
deriving DecidableEq, Repr

/-- **The report on a failure**: what failed, and why. -/
def Failure.report : Failure → String
  | .cannotOpen output e => paragraph ("Failed to open output " ++ output.display) e.message
  | .pipeline e => paragraph e.summary e.cause
where
  /-- A failure and its cause. -/
  paragraph (summary cause : String) : String :=
    joinLines ["Error: " ++ summary, "", "Caused by:", "    " ++ cause]

/-- **How a session ended.** -/
structure Outcome where
  exitCode : Nat
  /-- The bytes of the standard output. -/
  standardOutput : Bytes := []
  /-- The log lines that are shown. -/
  log : List LogLine := []
  /-- The report on a failure. -/
  report? : Option String := none
  /-- The files afterwards. -/
  files : FileSystem

/-- The scan that some settings ask for. -/
def Settings.scanOptions (s : Settings) : ScanOptions where
  root := s.repoPath
  ignore := s.ignore
  maxFileSize := s.maxFileSize
  useTracked := !s.walkAll

/-- Runs a pipeline into an output that has been opened. -/
def runInto (s : Settings) (shown : List LogLine → List LogLine) (pipeline : Pipeline)
    (fs : FileSystem) (d : Destination) : Outcome :=
  let sink := JsonLines.sink (Console.writer d) Console.files
  let ending := pipeline.run sink { writer := { files := fs } }
  let console := ending.state.writer
  match ending.result with
  | .error e => {
      exitCode := 1
      standardOutput := console.standardOutput
      log := shown ending.log
      report? := some (Failure.pipeline e).report
      files := console.files }
  | .ok _ =>
    let closing : List LogLine :=
      if isStandardOutput s.output then []
      else [⟨.info, "Wrote " ++ toString ending.state.written ++ " chunks to " ++ s.output.display⟩]
    { exitCode := 0
      standardOutput := console.standardOutput
      log := shown (ending.log ++ closing)
      files := console.files }

/-- Runs with some settings. -/
def runWith (s : Settings) (fs : FileSystem) (level? : Option String) : Outcome :=
  let shown := List.filter (·.isVisible (visibleRank s level?))
  let failed (f : Failure) : Outcome := { exitCode := 1, report? := some f.report, files := fs }
  match Pipeline.ofOptions fs s.scanOptions s.progressEvery with
  | .error e => failed (.pipeline e)
  | .ok pipeline =>
    match openOutput fs s.output with
    | .error e => failed (.cannotOpen s.output e)
    | .ok (opened, d) => runInto s shown pipeline opened d

/-- **A session**: arguments, files and the log level set from outside.  A wrong command line exits
with 2. -/
def session (args : List String) (fs : FileSystem) (level? : Option String) : Outcome :=
  match request? args with
  | none => { exitCode := 2, files := fs }
  | some .help => { exitCode := 0, standardOutput := Bytes.encode helpText, files := fs }
  | some .version => { exitCode := 0, standardOutput := Bytes.encode versionText, files := fs }
  | some (.run s) => runWith s fs level?

end SourceChunks.CommandLine
