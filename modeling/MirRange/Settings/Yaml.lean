import MirRange.Settings.Entry
import MirRange.Yaml

/-!
# Settings in YAML

* `Yaml.Value.toInteger`: the integer that a value stands for.
* `Settings.ofYaml`: the settings of a mapping.
-/

namespace MirRange

namespace Yaml

/-- The integer that a scalar stands for. -/
def Scalar.toInteger : Scalar → Except IntegerError Int
  | .int n => .ok n
  | .bool b => .ok (if b then 1 else 0)
  | .float x => integerOfFloat x
  | .text s => integerOfText s
  | .null => .error (.wrongType "NoneType")
  | .timestamp (.date _) => .error (.wrongType "datetime.date")
  | .timestamp (.moment ..) => .error (.wrongType "datetime.datetime")

namespace Value

/-- The integer that a value stands for. -/
def toInteger : Value → Except IntegerError Int
  | .scalar s => s.toInteger
  | .list _ => .error (.wrongType "list")
  | .mapping _ => .error (.wrongType "dict")

/-- The displayed items of a list. -/
def texts? : Value → Option (List String)
  | .list vs => some (vs.map display)
  | _ => none

/-- What a value counts as in a setting. -/
def toEntry (v : Value) : Entry where
  text := v.display
  texts := v.texts?
  flag := v.holds
  number := v.toInteger

end Value

end Yaml

/-- The settings of a value: anything but a mapping has only defaults, and only texts are keys of
settings. -/
def Settings.ofYaml : Yaml.Value → Except IntegerError Settings
  | .mapping es => ofEntries fun key => (Yaml.Entries.get? es key).map Yaml.Value.toEntry
  | _ => .ok {}

end MirRange
