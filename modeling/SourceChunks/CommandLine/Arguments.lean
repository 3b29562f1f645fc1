import SourceChunks.Pipeline.Run

/-!
# Arguments

Reading the arguments of the command, left to right.  The first fault makes the whole command line
wrong; a request for help or for the version that comes before any fault is granted at once.
-/

namespace SourceChunks.CommandLine

/-- **What a run is asked to do.** -/
structure Settings where
  /-- The root of the repository. -/
  repoPath : Path := Path.ofString ".."
  /-- Where chunks are written; `-` is the standard output. -/
  output : Path := Path.ofString "chunks.jsonl"
  /-- Ignore patterns besides the default ones. -/
  ignore : List String := []
  maxFileSize : Nat := PathFilter.defaultMaxFileSize
  /-- Is the whole tree walked even in a repository? -/
  walkAll : Bool := false
  progressEvery : Nat := defaultProgressEvery
  verbose : Bool := false
  quiet : Bool := false
deriving DecidableEq, Repr

/-- **What the command line asks for.** -/
inductive Request where
  | help
  | version
  | run (settings : Settings)
deriving DecidableEq, Repr

/-- The options that take one value. -/
inductive ValueOption where
  | repoPath
  | output
  | maxFileSize
  | progressEvery
deriving DecidableEq, Repr

/-- The options. -/
inductive Choice where
  | help
  | version
  | walkAll
  | verbose
  | quiet
  | ignore
  | valued (option : ValueOption)
deriving DecidableEq, Repr

/-- The option with a long name. -/
def longNamed? : String → Option Choice
  | "help" => some .help
  | "version" => some .version
  | "no-vcs" => some .walkAll
  | "verbose" => some .verbose
  | "quiet" => some .quiet
  | "ignore" => some .ignore
  | "repo-path" => some (.valued .repoPath)
  | "output" => some (.valued .output)
  | "max-file-size" => some (.valued .maxFileSize)
  | "progress-every" => some (.valued .progressEvery)
  | _ => none

/-- The option with a short name. -/
def shortNamed? : Char → Option Choice
  | 'h' => some .help
  | 'V' => some .version
  | 'v' => some .verbose
  | 'q' => some .quiet
  | 'o' => some (.valued .output)
  | _ => none

/-! ### Values -/

/-- A number of 64 bits in decimal digits, possibly after a plus sign. -/
def readNumber? (s : String) : Option Nat :=
  let digits := match s.toList with
    | '+' :: rest => rest
    | cs => cs
  if digits.isEmpty || !digits.all Char.isDigit then none
  else
    let n := digits.foldl (fun k c => k * 10 + Json.digitValue c) 0
    if n ≤ Json.maxNumber then some n else none

/-- A path; the empty text is none. -/
def readPath? (s : String) : Option Path := if s.isEmpty then none else some (Path.ofString s)

/-- What has been read so far.  An option that is not repeatable is absent until it comes. -/
structure Draft where
  repoPath : Option Path := none
  output : Option Path := none
  maxFileSize : Option Nat := none
  progressEvery : Option Nat := none
  /-- Patterns, last first. -/
  ignore : List String := []
  walkAll : Bool := false
  verbose : Bool := false
  quiet : Bool := false
deriving Repr

namespace Draft

/-- What a run is asked to do, with defaults for absent options. -/
def settings (d : Draft) : Settings :=
  let defaults : Settings := {}
  { repoPath := d.repoPath.getD defaults.repoPath
    output := d.output.getD defaults.output
    ignore := d.ignore.reverse
    maxFileSize := d.maxFileSize.getD defaults.maxFileSize
    walkAll := d.walkAll
    progressEvery := d.progressEvery.getD defaults.progressEvery
    verbose := d.verbose
    quiet := d.quiet }

/-- Gives an option its value, if that can be read and the option has none. -/
def setValue (d : Draft) (o : ValueOption) (s : String) : Option Draft :=
  match o with
  | .repoPath =>
    if d.repoPath.isSome then none else (readPath? s).map fun p => { d with repoPath := some p }
  | .output =>
    if d.output.isSome then none else (readPath? s).map fun p => { d with output := some p }
  | .maxFileSize =>
    if d.maxFileSize.isSome then none
    else (readNumber? s).map fun n => { d with maxFileSize := some n }
  | .progressEvery =>
    if d.progressEvery.isSome then none
    else (readNumber? s).map fun n => { d with progressEvery := some n }

/-- Adds a pattern. -/
def addPattern (d : Draft) (s : String) : Draft := { d with ignore := s :: d.ignore }

end Draft

/-! ### Options -/

/-- What the arguments before leave open. -/
inductive Expecting where
  /-- Nothing. -/
  | nothing
  /-- The value of an option. -/
  | value (option : ValueOption)
  /-- Patterns; `some` tells whether there was one. -/
  | patterns (any : Bool)
deriving DecidableEq, Repr

/-- May an option or the end come next? -/
def Expecting.isSettled : Expecting → Bool
  | .nothing => true
  | .value _ => false
  | .patterns any => any

/-- What an option comes to. -/
inductive Effect where
  /-- Reading goes on. -/
  | proceed (draft : Draft) (expecting : Expecting)
  /-- The request is decided. -/
  | decide (request : Request)
deriving Repr

/-- An option without a value attached to it. -/
def choose (d : Draft) : Choice → Option Effect
  | .help => some (.decide .help)
  | .version => some (.decide .version)
  | .walkAll => if d.walkAll then none else some (.proceed { d with walkAll := true } .nothing)
  | .verbose => if d.verbose then none else some (.proceed { d with verbose := true } .nothing)
  | .quiet => if d.quiet then none else some (.proceed { d with quiet := true } .nothing)
  | .ignore => some (.proceed d (.patterns false))
  | .valued o => some (.proceed d (.value o))

/-- An option with a value attached to it. -/
def chooseWith (d : Draft) (value : String) : Choice → Option Effect
  | .ignore => some (.proceed (d.addPattern value) .nothing)
  | .valued o => (d.setValue o value).map (.proceed · .nothing)
  | _ => none

/-- Short options in one argument; what follows an option that takes a value is that value, with
or without an equals sign. -/
def readCluster (d : Draft) : List Char → Option Effect
  | [] => some (.proceed d .nothing)
  | c :: rest =>
    match shortNamed? c with
    | none => none
    | some (.valued o) =>
      match rest with
      | [] => choose d (.valued o)
      | '=' :: value => chooseWith d (String.ofList value) (.valued o)
      | value => chooseWith d (String.ofList value) (.valued o)
    | some choice =>
      match choose d choice with
      | some (.proceed d _) => readCluster d rest
      | effect => effect

/-- A long option, after its dashes. -/
def readLong (d : Draft) (cs : List Char) : Option Effect :=
  let name := cs.takeWhile (· != '=')
  (longNamed? (String.ofList name)).bind fun choice =>
    match cs.dropWhile (· != '=') with
    | _ :: value => chooseWith d (String.ofList value) choice
    | [] => choose d choice

/-- How an argument looks. -/
inductive Shape where
  /-- `--` alone: no option follows. -/
  | terminator
  /-- A long option. -/
  | long (cs : List Char)
  /-- Short options. -/
  | cluster (cs : List Char)
  /-- Anything else, a single dash included. -/
  | plain
deriving Repr

/-- The shape of an argument. -/
def shapeOf (arg : String) : Shape :=
  match arg.toList with
  | ['-', '-'] => .terminator
  | '-' :: '-' :: cs => .long cs
  | ['-'] => .plain
  | '-' :: cs => .cluster cs
  | _ => .plain

/-- **Reads arguments**, given what those before leave open. -/
def readArguments (d : Draft) (expecting : Expecting) : List String → Option Request
  | [] => if expecting.isSettled then some (.run d.settings) else none
  | arg :: rest =>
    let proceed : Option Effect → Option Request
      | none => none
      | some (.decide request) => some request
      | some (.proceed d expecting) => readArguments d expecting rest
    match shapeOf arg with
    | .terminator =>
      if expecting.isSettled && rest.isEmpty then some (.run d.settings) else none
    | .long cs => if expecting.isSettled then proceed (readLong d cs) else none
    | .cluster cs => if expecting.isSettled then proceed (readCluster d cs) else none
    | .plain =>
      match expecting with
      | .nothing => none
      | .value o => proceed ((d.setValue o arg).map (.proceed · .nothing))
      | .patterns _ => proceed (some (.proceed (d.addPattern arg) (.patterns true)))

/-- **What the command line asks for**, or `none` if it is wrong. -/
def request? (args : List String) : Option Request := readArguments {} .nothing args

end SourceChunks.CommandLine
