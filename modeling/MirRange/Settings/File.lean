import MirRange.Document.Reader
import MirRange.Files
import MirRange.Settings.Document
import MirRange.Settings.Yaml

/-!
# Settings in files

The settings of a project stand in a file of the directory that the program is started in, or of the
nearest directory above it.  A file that cannot be read or understood counts for nothing and is
warned of.

* `Settings.find`: the nearest file with settings.
* `Settings.ofFile`: the settings of a file.
* `Settings.load`: the settings of a given file or of the nearest one.
-/

namespace MirRange

namespace Settings

/-- The names of files with settings, the first one first. -/
def fileNames : List String :=
  [".mirabsrc.yml", ".mirabsrc.yaml", ".mirabsrc.json", "mirabs.config.yml", "mirabs.config.json"]

/-- The paths where settings are looked for, seen from a working directory. -/
def places (directory start : String) : List String :=
  (Path.ancestors (Path.absolute directory start)).flatMap fun folder =>
    fileNames.map fun name => Path.ofNames (folder ++ [name])

/-- The nearest file with settings. -/
def find {m : Type → Type} [Monad m] (files : Files m) (start : String) : m (Option String) := do
  let directory ← files.directory
  (places directory start).findM? files.isFile

/-- Why settings cannot be loaded. -/
inductive LoadError where
  | integer (e : IntegerError)
  | scalar (e : Yaml.ScalarError)
  | path (e : PathError)
deriving Repr, DecidableEq

/-- Settings, with the warnings about the file that they come from. -/
structure Loaded where
  settings : Settings
  warnings : List String

/-- The settings in the text of a file, or why the text is not understood: the name of the file
tells how it is written. -/
def ofText (path text : String) : Except LoadError (Except String Settings) :=
  if path.endsWith ".json" then
    match Document.ofText text with
    | .ok d => ((ofDocument d).mapError .integer).map .ok
    | .error e => .ok (.error e.message)
  else
    match Yaml.ofText text with
    | .ok v => ((ofYaml v).mapError .integer).map .ok
    | .error (.fault f) => .ok (.error f.message)
    | .error (.scalar e) => .error (.scalar e)

/-- The settings of a file, given what came of reading it. -/
def ofFile (path : String) : Except FileError String → Except LoadError Loaded
  | .error e => .ok ⟨{}, ["Could not read config " ++ path ++ ": " ++ e.message path]⟩
  | .ok text => do
    match ← ofText path text with
    | .ok settings => return ⟨settings, []⟩
    | .error e => return ⟨{}, ["Could not parse config " ++ path ++ ": " ++ e]⟩

/-- The settings of a given file, or else of the nearest one; without any file the defaults. -/
def load {m : Type → Type} [Monad m] (files : Files m) (path : Option String) (start : String) :
    m (Except LoadError Loaded) := do
  let source ← match path with
    | some p => pure (some p)
    | none => find files start
  match source with
  | none => return .ok ⟨{}, []⟩
  | some p =>
    match Path.check p with
    | .error e => return .error (.path e)
    | .ok p =>
      let text ← files.read p
      return ofFile p text

end Settings

end MirRange
