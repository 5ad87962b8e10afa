import MirRange.Program

/-!
# The command line program

* `main`: run the program on the files of the machine.
-/

namespace MirRange

/-- The reason why a file cannot be read. -/
def fileError : IO.Error → FileError
  | .noFileOrDirectory .. => .missing
  | .inappropriateType _ _ details =>
    if details = FileError.isDirectory.reason then .isDirectory else .notDirectory
  | e => ⟨5, toString e⟩

/-- The files of the machine. -/
def machineFiles : Files IO where
  directory := do return (← IO.currentDir).toString
  read path := do
    try
      let text ← IO.FS.readFile path
      return .ok (String.ofList (lineFeeds text.toList))
    catch e => return .error (fileError e)
  isFile path := do
    try
      let _ ← IO.FS.readFile path
      return true
    catch _ => return false

/-- Colours are used on a terminal, unless the environment says otherwise. -/
def terminalStyle : IO Style := do
  let quiet ← IO.getEnv "NO_COLOR"
  if (← (← IO.getStdout).isTty) && quiet.isNone then return .colored else return .plain

end MirRange

open MirRange in
/-- Run the program on its arguments. -/
def main (args : List String) : IO UInt32 := do
  match ← Program.run machineFiles Solver.ends.verdict (← terminalStyle) args with
  | .ok outcome =>
    (← IO.getStderr).putStr outcome.err
    (← IO.getStdout).putStr outcome.out
    return outcome.status.toUInt32
  | .error crash =>
    (← IO.getStderr).putStrLn crash.message
    return 1
