/-!
# Log entries

* `LogLevel`, `LogEntry`: what is logged, how urgent it is and which part of the analysis says it.
* `LogEntry.line`: an entry as it is printed.
-/

namespace MirRange

/-- How urgent a log entry is. -/
inductive LogLevel where
  | debug
  | info
deriving Repr, DecidableEq

/-- The name of a level. -/
def LogLevel.name : LogLevel → String
  | .debug => "DEBUG"
  | .info => "INFO"

/-- The rank of a level: entries below a threshold are not printed. -/
def LogLevel.rank : LogLevel → Nat
  | .debug => 10
  | .info => 20

/-- The parts of the analysis that log. -/
inductive LogSource where
  | analysis
  | interpreter
  | overflow
deriving Repr, DecidableEq

/-- The name of a part. -/
def LogSource.name : LogSource → String
  | .analysis => "mirabs.analysis"
  | .interpreter => "mirabs.interpreter"
  | .overflow => "mirabs.overflow"

/-- One entry of a log. -/
structure LogEntry where
  level : LogLevel
  source : LogSource
  message : String

/-- An entry as it is printed. -/
def LogEntry.line (e : LogEntry) : String :=
  e.level.name ++ " " ++ e.source.name ++ ": " ++ e.message

end MirRange
