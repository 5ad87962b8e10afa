import MirRange.CommandLine.Grammar

/-!
# Commands

The program has two commands: one analyses a crate, the other shows the state that one function of
it ends in.

* `Command`: the commands with their options.
* `Command.parse`: the command of a command line, or what is shown instead.
-/

namespace MirRange

/-- The options of the command that analyses a crate. -/
structure AnalyzeOptions where
  file : String
  format : CommandLine.Argument
  config : CommandLine.Argument
  noOverflow : Bool
  parallel : Bool
  verbose : Bool
deriving Repr, DecidableEq

/-- The options of the command that shows a state. -/
structure StateOptions where
  file : String
  function : CommandLine.Argument
  args : CommandLine.Argument
  config : CommandLine.Argument
  verbose : Bool
deriving Repr, DecidableEq

/-- The commands. -/
inductive Command where
  | analyze (o : AnalyzeOptions)
  | state (o : StateOptions)
deriving Repr, DecidableEq

namespace CommandLine

/-- The option that asks for help. -/
def helpSwitch : Switch where
  names := ["-h", "--help"]
  request := .help

/-- The option that names a settings file. -/
def configSwitch : Switch where
  names := ["--config"]
  request := .value []

/-- The option that asks for a full log. -/
def verboseSwitch : Switch where
  names := ["-v", "--verbose"]
  request := .flag

/-- The name and version of the program. -/
def versionText : String :=
  "mirabs 0.1.0"

/-- The formats of reports. -/
def formats : List String :=
  ["pretty", "summary", "json"]

/-- Lines of text, each with its line end. -/
def lines (ls : List String) : String :=
  String.join (ls.map (· ++ "\n"))

/-- The grammar of the program. -/
def programGrammar : Grammar where
  program := "mirabs"
  usage := "usage: mirabs [-h] [--version] \x7banalyze,state\x7d ..."
  explanation := lines [
    "mirabs — abstract interpretation of MIR function bodies",
    "",
    "positional arguments:",
    "  \x7banalyze,state\x7d  Available commands",
    "    analyze        Summarize and interpret every function",
    "    state          Interpret one body and print its abstract state",
    "",
    "options:",
    "  -h, --help       show this help message and exit",
    "  --version        show program's version number and exit"]
  version := versionText
  switches := [helpSwitch, { names := ["--version"], request := .version }]
  operand := .command "command" ["analyze", "state"]

/-- The grammar of the command that analyses a crate. -/
def analyzeGrammar : Grammar where
  program := "mirabs analyze"
  usage :=
    "usage: mirabs analyze [-h] [--format \x7bpretty,summary,json\x7d] [--config CONFIG]\n"
      ++ "                      [--no-overflow] [--parallel] [-v]\n"
      ++ "                      file"
  explanation := lines [
    "positional arguments:",
    "  file                  Crate dump (.json)",
    "",
    "options:",
    "  -h, --help            show this help message and exit",
    "  --format \x7bpretty,summary,json\x7d",
    "                        Output format",
    "  --config CONFIG       Path to a .mirabsrc.yml / .json file",
    "  --no-overflow         Skip overflow diagnostics for checked arithmetic",
    "  --parallel            Analyze functions in a process pool",
    "  -v, --verbose         Debug logging"]
  version := versionText
  switches := [helpSwitch, { names := ["--format"], request := .value formats }, configSwitch,
    { names := ["--no-overflow"], request := .flag }, { names := ["--parallel"], request := .flag },
    verboseSwitch]
  operand := .single "file"

/-- The grammar of the command that shows a state. -/
def stateGrammar : Grammar where
  program := "mirabs state"
  usage :=
    "usage: mirabs state [-h] --function FUNCTION [--args ARGS] [--config CONFIG]\n"
      ++ "                    [-v]\n"
      ++ "                    file"
  explanation := lines [
    "positional arguments:",
    "  file                 Crate dump (.json)",
    "",
    "options:",
    "  -h, --help           show this help message and exit",
    "  --function FUNCTION  Function name",
    "  --args ARGS          Argument values as JSON, e.g. '[\x7b\"int\": [3, 3]\x7d]'",
    "  --config CONFIG      Path to a .mirabsrc.yml / .json file",
    "  -v, --verbose        Debug logging"]
  version := versionText
  switches := [helpSwitch, { names := ["--function"], request := .value [], required := true },
    { names := ["--args"], request := .value [] }, configSwitch, verboseSwitch]
  operand := .single "file"

/-- The file that a command line names. -/
def fileOf (p : Parsed) : String :=
  (p.operand.map Prod.fst).getD ""

/-- The options of the command that analyses a crate, as a command line gives them. -/
def analyzeOptions (p : Parsed) : AnalyzeOptions where
  file := fileOf p
  format := p.argument "--format"
  config := p.argument "--config"
  noOverflow := p.has "--no-overflow"
  parallel := p.has "--parallel"
  verbose := p.has "--verbose"

/-- The options of the command that shows a state, as a command line gives them. -/
def stateOptions (p : Parsed) : StateOptions where
  file := fileOf p
  function := p.argument "--function"
  args := p.argument "--args"
  config := p.argument "--config"
  verbose := p.has "--verbose"

end CommandLine

namespace Command

open CommandLine in
/-- The command of a command line with the name of a command, and what belongs to nothing. -/
def ofName (name : String) (args : List String) : Except Outcome (Command × List String) :=
  if name = "state" then do
    let p ← (stateGrammar.parse args).mapError stateGrammar.outcome
    return (.state (stateOptions p), p.extras)
  else do
    let p ← (analyzeGrammar.parse args).mapError analyzeGrammar.outcome
    return (.analyze (analyzeOptions p), p.extras)

open CommandLine in
/-- The command of a command line, or what is shown instead. -/
def parse (args : List String) : Except Outcome Command := do
  let p ← (programGrammar.parse args).mapError programGrammar.outcome
  let (command, extras) ←
    match p.operand with
    | none => pure (none, p.extras)
    | some (name, rest) => do
      let (command, extras) ← ofName name rest
      pure (some command, p.extras ++ extras)
  if extras.isEmpty then
    match command with
    | some c => return c
    | none => .error { programGrammar.outcome .help with status := 1 }
  else .error (programGrammar.outcome (.refused (.unrecognized extras)))

/-- The crate file of a command. -/
def file : Command → String
  | .analyze o => o.file
  | .state o => o.file

/-- What a command names as its settings file. -/
def config : Command → CommandLine.Argument
  | .analyze o => o.config
  | .state o => o.config

/-- Whether a command asks for a full log. -/
def verbose : Command → Bool
  | .analyze o => o.verbose
  | .state o => o.verbose

end Command

end MirRange
