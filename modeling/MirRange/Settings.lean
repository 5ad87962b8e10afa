import MirRange.Glob
import MirRange.Log

/-!
# Settings

What a project can choose: which functions are analysed, whether checked operations are examined for
overflow, and how results and logs are shown.

* `Settings`: the choices and their defaults.
* `Settings.selects`: whether a function is analysed.
* `Settings.threshold`: which log entries are shown.
-/

namespace MirRange

/-- The choices of a project. -/
structure Settings where
  logLevel : String := "warning"
  format : String := "pretty"
  /-- Patterns of the functions to analyse; without any, all of them. -/
  includes : List String := []
  /-- Patterns of the functions not to analyse. -/
  excludes : List String := []
  checkOverflow : Bool := true
  solverTimeoutMs : Int := 10000
  parallel : Bool := false
  parallelWorkers : Int := 0
deriving Repr, DecidableEq

/-- What a log level name stands for: a rank, or something that is no level at all. -/
inductive Threshold where
  | rank (n : Nat)
  /-- The form of a log line. -/
  | template (text : String)
  /-- A table of such forms, as messages show it. -/
  | table (text : String)
deriving Repr, DecidableEq

namespace Settings

/-- Whether a function is analysed: it is included and not excluded. -/
def selects (s : Settings) (name : String) : Bool :=
  (s.includes.isEmpty || s.includes.any (Glob.accepts · name))
    && !s.excludes.any (Glob.accepts · name)

/-- The letters outside ASCII whose capitals are in ASCII, with their capitals. -/
def wideCapitals : List (Char × String) :=
  [('ß', "SS"), ('ı', "I"), ('ſ', "S"), ('ﬀ', "FF"), ('ﬁ', "FI"), ('ﬂ', "FL"), ('ﬃ', "FFI"),
    ('ﬄ', "FFL"), ('ﬅ', "ST"), ('ﬆ', "ST")]

/-- A name in capitals, as far as they are in ASCII; other letters cannot be part of a level
name. -/
def capitals (s : String) : String :=
  String.ofList <| s.toList.flatMap fun c =>
    match wideCapitals.lookup c with
    | some caps => caps.toList
    | none => [c.toUpper]

/-- The form of a log line. -/
def lineTemplate : String :=
  "%(levelname)s:%(name)s:%(message)s"

/-- The forms of a log line in three styles, each under the sign that marks its fields. -/
def templateTable : String :=
  "\x7b'%': (<class 'logging.PercentStyle'>, '" ++ lineTemplate
    ++ "'), '\x7b': (<class 'logging.StrFormatStyle'>, "
    ++ "'\x7blevelname\x7d:\x7bname\x7d:\x7bmessage\x7d'), "
    ++ "'$': (<class 'logging.StringTemplateStyle'>, "
    ++ "'$\x7blevelname\x7d:$\x7bname\x7d:$\x7bmessage\x7d')\x7d"

/-- The names of log levels in capitals. -/
def thresholds : List (String × Threshold) :=
  [("NOTSET", .rank 0), ("DEBUG", .rank 10), ("INFO", .rank 20), ("WARN", .rank 30),
    ("WARNING", .rank 30), ("ERROR", .rank 40), ("CRITICAL", .rank 50), ("FATAL", .rank 50),
    ("BASIC_FORMAT", .template lineTemplate), ("_STYLES", .table templateTable)]

/-- The threshold that the log level stands for; an unknown name counts as a warning. -/
def threshold (s : Settings) : Threshold :=
  (thresholds.lookup (capitals s.logLevel)).getD (.rank 30)

end Settings

end MirRange
