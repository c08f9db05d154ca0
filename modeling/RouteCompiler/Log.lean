/-!
Log records. A record belongs to a logger, whose name says which part of the library wrote it; all
names start alike.
-/

namespace RouteCompiler

inductive LogLevel
  | debug
  | info
  | warning
  | error
  deriving DecidableEq, Repr

/-- Levels in their order. -/
def LogLevel.rank : LogLevel → Nat
  | .debug => 10
  | .info => 20
  | .warning => 30
  | .error => 40

def LogLevel.name : LogLevel → String
  | .debug => "DEBUG"
  | .info => "INFO"
  | .warning => "WARNING"
  | .error => "ERROR"

structure LogRecord where
  level : LogLevel
  logger : String
  message : String
  deriving DecidableEq, Repr

/-- The logger above all others. -/
def rootLogger : String := "flowgen.gen"

/-- The logger of a module: the last segment of the module's name below the root logger. -/
def loggerOf : Option String → String
  | none => rootLogger
  | some m =>
    if m = rootLogger then rootLogger
    else rootLogger ++ "." ++ String.ofList ((m.toList.splitOn '.').getLastD [])

/-- How much is written out. -/
def levelFor (verbose quiet : Bool) : LogLevel :=
  if verbose then .debug else if quiet then .warning else .info

/-- The messages that reach the reader at a level, one a line. -/
def shownLog (level : LogLevel) (records : List LogRecord) : String :=
  String.join ((records.filter fun r => level.rank ≤ r.level.rank).map fun r => r.message ++ "\n")

end RouteCompiler
