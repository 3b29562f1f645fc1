/-!
# Log lines

What a run has to say besides its result.  Functions return their log lines as values; only the
command line prints them.
-/

namespace SourceChunks

/-- How important a log line is, most important first. -/
inductive LogLevel where
  | error
  | warn
  | info
  | debug
  | trace
deriving DecidableEq, Repr

namespace LogLevel

/-- The name of a level in upper case. -/
def name : LogLevel → String
  | .error => "ERROR"
  | .warn => "WARN"
  | .info => "INFO"
  | .debug => "DEBUG"
  | .trace => "TRACE"

/-- Position from the most important level. -/
def rank : LogLevel → Nat
  | .error => 1
  | .warn => 2
  | .info => 3
  | .debug => 4
  | .trace => 5

end LogLevel

/-- **One log line.** -/
structure LogLine where
  level : LogLevel
  text : String
deriving DecidableEq, Repr

/-- Is a line printed when levels up to `rank` are? -/
def LogLine.isVisible (rank : Nat) (l : LogLine) : Bool := decide (l.level.rank ≤ rank)

/-- The line as it is printed. -/
def LogLine.render (l : LogLine) : String := l.level.name ++ " " ++ l.text

end SourceChunks
