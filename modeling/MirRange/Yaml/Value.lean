import MirRange.Document.Literal
import MirRange.Numeral.Binary64
import MirRange.Yaml.Timestamp

/-!
# Values of YAML documents

The keys of a mapping are scalars of any kind.  Two keys are the same if they stand for the same
thing: a whole number is one key, whether it is written as an integer, as a float or as a truth
value.  Entries keep the order in which their keys were first met.

* `Yaml.Scalar`, `Yaml.Value`: scalars, lists and mappings.
* `Yaml.Scalar.identity`: what a key stands for.
* `Yaml.Entries.get?`, `Yaml.Entries.put`: look-up by key, and insertion that keeps a key's first
  place.
* `Yaml.Value.literal`, `Yaml.Value.display`, `Yaml.Value.holds`: the form of a value inside a
  message, its form as plain text, and whether it counts as true.
-/

namespace MirRange.Yaml

/-- A value without parts. -/
inductive Scalar where
  | null
  | bool (b : Bool)
  | int (n : Int)
  | float (x : Float)
  | text (s : String)
  | timestamp (t : Timestamp)

/-- What a scalar stands for. -/
inductive Identity where
  | null
  | whole (n : Int)
  /-- A float that is no whole number. -/
  | fraction (x : Binary64)
  | text (s : String)
  /-- A date, or a moment whose offset is not known. -/
  | timestamp (t : Timestamp)
  /-- A moment, by its microseconds of universal time. -/
  | instant (microseconds : Int)
deriving DecidableEq

namespace Scalar

/-- What a scalar stands for. -/
def identity : Scalar → Identity
  | .null => .null
  | .bool b => .whole (if b then 1 else 0)
  | .int n => .whole n
  | .float x =>
    match (Binary64.parts x).whole? with
    | some n => .whole n
    | none => .fraction (Binary64.parts x)
  | .text s => .text s
  | .timestamp (.moment d c (some offset)) => .instant (instant d c offset)
  | .timestamp t => .timestamp t

/-- The form of a scalar inside a message. -/
def literal : Scalar → String
  | .null => Document.literal .null
  | .bool b => Document.literal (.bool b)
  | .int n => Document.literal (.int n)
  | .float x => Document.literal (.float x)
  | .text s => Document.literal (.text s)
  | .timestamp t => t.literal

/-- A scalar as plain text. -/
def display : Scalar → String
  | .text s => s
  | .timestamp t => t.display
  | s => s.literal

/-- Whether a scalar counts as true: everything does except null, false, zero and the empty text. -/
def holds : Scalar → Bool
  | .null => Document.holds .null
  | .bool b => Document.holds (.bool b)
  | .int n => Document.holds (.int n)
  | .float x => Document.holds (.float x)
  | .text s => Document.holds (.text s)
  | .timestamp _ => true

end Scalar

/-- A value of a document. -/
inductive Value where
  | scalar (s : Scalar)
  | list (items : List Value)
  | mapping (entries : List (Scalar × Value))

/-- The entries of a mapping, in the order in which their keys were first met. -/
abbrev Entries := List (Scalar × Value)

namespace Entries

/-- The value stored under a text. -/
def get? : Entries → String → Option Value
  | [], _ => none
  | (k, v) :: es, key => if k.identity = .text key then some v else get? es key

/-- Store a value under a key: a known key stays as it was first met, a new one comes last. -/
def put : Entries → Scalar → Value → Entries
  | [], key, v => [(key, v)]
  | (k, old) :: es, key, v =>
    if k.identity = key.identity then (k, v) :: es else (k, old) :: put es key v

/-- The entries that are stored one after the other. -/
def gather (es : List (Scalar × Value)) : Entries :=
  es.foldl (fun stored (k, v) => stored.put k v) []

end Entries

namespace Value

mutual

/-- The form of a value inside a message. -/
def literal : Value → String
  | .scalar s => s.literal
  | .list items => listLiteral (literals items)
  | .mapping es => objectLiteral (entryLiterals es)

/-- The forms of the items of a list. -/
def literals : List Value → List String
  | [] => []
  | v :: vs => literal v :: literals vs

/-- The forms of the entries of a mapping. -/
def entryLiterals : List (Scalar × Value) → List String
  | [] => []
  | (k, v) :: es => (k.literal ++ ": " ++ literal v) :: entryLiterals es

end

/-- A value as plain text. -/
def display : Value → String
  | .scalar s => s.display
  | v => literal v

/-- Whether a value counts as true; empty collections do not. -/
def holds : Value → Bool
  | .scalar s => s.holds
  | .list items => !items.isEmpty
  | .mapping es => !es.isEmpty

end Value

end MirRange.Yaml
