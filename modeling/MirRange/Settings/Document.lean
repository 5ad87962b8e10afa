import MirRange.Document.Literal
import MirRange.Settings.Entry

/-!
# Settings in documents

* `Document.toInteger`: the integer that a value stands for.
* `Settings.ofDocument`: the settings of an object.
* `Settings.toDocument`: the document form of settings.
-/

namespace MirRange

namespace Document

/-- The integer that a value stands for. -/
def toInteger : Document → Except IntegerError Int
  | .int n => .ok n
  | .bool b => .ok (if b then 1 else 0)
  | .float x => integerOfFloat x
  | .text s => integerOfText s
  | .null => .error (.wrongType "NoneType")
  | .list _ => .error (.wrongType "list")
  | .object _ => .error (.wrongType "dict")

/-- The displayed items of a list. -/
def texts? : Document → Option (List String)
  | .list ds => some (ds.map display)
  | _ => none

/-- What a value counts as in a setting. -/
def toEntry (d : Document) : Entry where
  text := d.display
  texts := d.texts?
  flag := d.holds
  number := d.toInteger

end Document

namespace Settings

/-- The settings of an object; what it leaves out has its default. -/
def ofMembers (ms : Members) : Except IntegerError Settings :=
  ofEntries fun key => (ms.get? key).map Document.toEntry

/-- The settings of a document: anything but an object has only defaults. -/
def ofDocument : Document → Except IntegerError Settings
  | .object ms => ofMembers ms
  | _ => .ok {}

/-- The document form of settings. -/
def toDocument (s : Settings) : Document :=
  .object [("log_level", .text s.logLevel), ("format", .text s.format),
    ("include", .list (s.includes.map .text)), ("exclude", .list (s.excludes.map .text)),
    ("check_overflow", .bool s.checkOverflow), ("solver_timeout_ms", .int s.solverTimeoutMs),
    ("parallel", .bool s.parallel), ("parallel_workers", .int s.parallelWorkers)]

end Settings

/-- The document form of a threshold; for a table it is the rank of warnings. -/
def Threshold.toDocument : Threshold → Document
  | .rank n => .int n
  | .template s => .text s
  | .table _ => .int 30

end MirRange
