import MirRange.Analysis
import MirRange.CommandLine.Command
import MirRange.Presentation
import MirRange.Settings.File
import MirRange.Value.Lattice

/-!
# The program

A run reads the settings and the crate, carries out its command and leaves an outcome: a status, and
texts for the output and for the log.

* `Crate.reach`: the state that a function ends in; `Reached.outcome`: how it is shown.
* `Command.run`: a command on settings and the text of a crate.
* `Program.run`: the program on its arguments.
-/

namespace MirRange

/-- Why a run breaks off without an outcome. -/
inductive Crash where
  | violation (v : Violation)
  | integer (e : IntegerError)
  | scalar (e : Yaml.ScalarError)
  | path (e : PathError)
  | presentation (e : PresentationError)
  /-- The log level of the settings is no level. -/
  | level (text : String)
  /-- The log level of the settings is not even a text. -/
  | levelTable (text : String)
  /-- There is no text to read the arguments of a function from. -/
  | arguments

/-- The wording of a crash. -/
def Crash.message : Crash → String
  | .violation v => v.message
  | .integer e => e.message
  | .scalar e => e.message
  | .path e => e.message
  | .presentation .noMessage => "'message'"
  | .level text => "Unknown level: " ++ Text.quote text
  | .levelTable text => "Level not an integer or a valid string: " ++ text
  | .arguments => "the JSON object must be str, bytes or bytearray, not list"

/-- The crash of a run whose settings cannot be loaded. -/
def Crash.ofLoadError : Settings.LoadError → Crash
  | .integer e => .integer e
  | .scalar e => .scalar e
  | .path e => .path e

/-! ### The state of a function -/

/-- What comes of running one function. -/
inductive Reached where
  /-- The arguments are given in a text that cannot be read. -/
  | unreadable (e : ReadError)
  | refused (p : Problem)
  | completed (run : Run)

namespace Reached

/-- How the result is shown: the state as output, the faults on the way as log. -/
def outcome : Reached → Outcome
  | .unreadable e =>
    { status := 2
      out := (Document.object
        [("error", .text ("--args is not valid JSON: " ++ e.message))]).toText none ++ "\n" }
  | .refused p => { status := 1, out := p.toText (some 2) ++ "\n" }
  | .completed run =>
    { status := if run.faults.isEmpty then 0 else 1
      out := run.state.toDocument.toText (some 2) ++ "\n"
      err := if run.faults.isEmpty then ""
        else Problem.listText (run.faults.map Fault.problem) (some 2) ++ "\n" }

/-- What is logged while the function runs. -/
def log : Reached → List LogEntry
  | .completed run => Examination.runLog run
  | _ => []

end Reached

/-- Run a body on given arguments. -/
def Body.reach (b : Body) (args : List Value) : Except Violation Reached :=
  match b.interpret args with
  | .ok run => .ok (.completed run)
  | .error (.fault f) => .ok (.refused f.problem)
  | .error (.violation v) => .error v

/-- The problem with arguments that are not a list. -/
def argumentsProblem (text : String) : Problem :=
  Problem.make .invalidArgument "--args must be a JSON list of abstract values"
    [("args", .text text)]

/-- Run a body on the arguments in a text. -/
def Body.reachText (b : Body) (text : String) : Except Violation Reached :=
  match Document.ofText text with
  | .error e => .ok (.unreadable e)
  | .ok (.list ds) =>
    match readAll Value.ofDocument ds with
    | .ok args => b.reach args
    | .error m => .ok (.refused m.problem)
  | .ok _ => .ok (.refused (argumentsProblem text))

/-- Run a body on the arguments of its summary. -/
def Body.reachSummary (b : Body) : Except Violation Reached :=
  match b.summary with
  | .error e => .ok (.refused e.problem)
  | .ok summary => b.reach summary.arguments

/-- The function that is asked for; where no name is given, there is none. -/
def Crate.choose (c : Crate) : CommandLine.Argument → Except Fault Function
  | .text name => c.find name
  | _ => .error (.noFunction c.name "[]")

/-- Run a function of a crate on the arguments in a text, or else on those of its summary. -/
def Crate.reach (c : Crate) (name args : CommandLine.Argument) : Except Crash Reached :=
  match c.choose name with
  | .error f => .ok (.refused f.problem)
  | .ok f =>
    match args with
    | .text text => (f.body.reachText text).mapError .violation
    | .absent => f.body.reachSummary.mapError .violation
    | .blank => .error .arguments

/-! ### Commands -/

/-- The crate in a file, given what came of reading it, or what is shown instead. -/
def Crate.ofFile (path : String) : Except FileError String → Except String Crate
  | .error e =>
    .error ((Document.object
      [("error", .text ("Cannot read " ++ path ++ ": " ++ e.reason))]).toText none)
  | .ok text => (Crate.ofText text).mapError fun m => m.problem.toText (some 2)

/-- The log as it is printed, without the entries below a rank. -/
def logText (rank : Nat) (entries : List LogEntry) : String :=
  String.join ((entries.filter fun e => rank ≤ e.level.rank).map fun e => e.line ++ "\n")

namespace Command

/-- The rank from which on log entries are printed. -/
def logRank (command : Command) (settings : Settings) : Except Crash Nat :=
  if command.verbose then .ok LogLevel.debug.rank
  else
    match settings.threshold with
    | .rank n => .ok n
    | .template text => .error (.level text)
    | .table text => .error (.levelTable text)

/-- Settings, changed by the options of a command. -/
def adjust (o : AnalyzeOptions) (settings : Settings) : Settings :=
  { settings with
    format := match o.format with
      | .text format => format
      | _ => settings.format
    checkOverflow := settings.checkOverflow && !o.noOverflow
    parallel := settings.parallel || o.parallel }

/-- Analyse a crate. -/
def runAnalyze (checker : Overflow.Checker) (o : AnalyzeOptions) (style : Style) (rank : Nat)
    (settings : Settings) (c : Crate) : Except Crash Outcome := do
  let settings := adjust o settings
  let report ← (c.analyze checker settings).mapError .violation
  let log ← (c.analysisLog checker settings).mapError .violation
  let text ← (report.present style settings.format).mapError .presentation
  return {
    status := if report.failed.isEmpty then 0 else 1
    out := text ++ "\n"
    err := logText rank log }

/-- Show the state that a function ends in. -/
def runState (o : StateOptions) (rank : Nat) (c : Crate) : Except Crash Outcome := do
  let reached ← c.reach o.function o.args
  let shown := reached.outcome
  return { shown with err := logText rank reached.log ++ shown.err }

/-- Carry out a command, given what came of reading the settings and the crate. -/
def run (checker : Overflow.Checker) (style : Style)
    (loaded : Except Settings.LoadError Settings.Loaded) (text : Except FileError String)
    (command : Command) : Except Crash Outcome := do
  let loaded ← loaded.mapError .ofLoadError
  let rank ← command.logRank loaded.settings
  let _ ← (Path.check command.file).mapError .path
  let outcome ←
    match Crate.ofFile command.file text, command with
    | .error shown, _ => pure { status := 2, out := shown ++ "\n" }
    | .ok c, .analyze o => runAnalyze checker o style rank loaded.settings c
    | .ok c, .state o => runState o rank c
  return { outcome with err := CommandLine.lines loaded.warnings ++ outcome.err }

end Command

/-- The path that a command line gives, if it gives any. -/
def CommandLine.Argument.path? : CommandLine.Argument → Except PathError (Option String)
  | .absent => .ok none
  | .blank => .error .blank
  | .text path => .ok (some path)

/-- Run the program on its arguments. -/
def Program.run {m : Type → Type} [Monad m] (files : Files m) (checker : Overflow.Checker)
    (style : Style) (args : List String) : m (Except Crash Outcome) := do
  match Command.parse args with
  | .error outcome => return .ok outcome
  | .ok command =>
    match command.config.path? with
    | .error e => return .error (.path e)
    | .ok path =>
      let loaded ← Settings.load files path "."
      let text ← files.read command.file
      return command.run checker style loaded text

end MirRange
