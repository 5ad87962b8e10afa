import MirRange.Document.Literal
import MirRange.Document.Reader
import MirRange.Problem

/-!
# Malformed documents

Why a document cannot be read as a value, a type, or a part of a crate.  Each cause keeps the
document it is about; the wording is in one place.

* `Malformed`: the causes.
* `Malformed.problem`: how a cause is reported, always as an invalid argument.
* `Document.require`, `Document.requireList`, …: reading a key with an expected shape.
-/

namespace MirRange

/-- The shapes that a key can be asked to have. -/
inductive Shape where
  | list
  | object
  | text
  | integer
deriving Repr, DecidableEq

/-- The name of a shape in messages. -/
def Shape.name : Shape → String
  | .list => "list"
  | .object => "dict"
  | .text => "str"
  | .integer => "int"

/-- The rvalues that are written as a list of fixed length. -/
inductive Listed where
  | binary
  | checked
  | unary
deriving Repr, DecidableEq

/-- The key of an rvalue that is written as a list. -/
def Listed.key : Listed → String
  | .binary => "binary_op"
  | .checked => "checked_binary_op"
  | .unary => "unary_op"

/-- Why a document cannot be read. -/
inductive Malformed where
  | value (d : Document)
  | truth (d : Document)
  | pair (d : Document)
  | bound (d : Document)
  | inverted (d : Document)
  | valueKind (kind : String)
  | type (d : Document)
  | width (d : Document)
  | fields (d : Document)
  | missingPointee
  | typeKind (kind : String)
  | missingKey (key : String)
  | shape (key : String) (expected : Shape)
  | notInteger (key : String) (d : Document)
  | projection (d : Document)
  | projectionElement (d : Document)
  | operand (d : Document)
  | constKind (d : Document)
  | constBytes (d : Document)
  | listed (what : Listed) (d : Document)
  | binaryOperator (d : Document)
  | unaryOperator (d : Document)
  | rvalue (d : Document)
  | statement (d : Document)
  | crate
  | crateText (e : ReadError)

namespace Malformed

/-- The wording of a cause. -/
def message : Malformed → String
  | value d => "Malformed abstract value " ++ d.literal
  | truth d => "Malformed abstract bool " ++ d.literal
  | pair d => "An interval must be a [lower, upper] pair, got " ++ d.literal
  | bound d => "Malformed interval bound " ++ d.literal
  | inverted d => "Inverted interval " ++ d.literal
  | valueKind kind => "Unknown abstract value kind " ++ Text.quote kind
  | type d => "Malformed type descriptor: " ++ d.literal
  | width d => "Malformed bit width " ++ d.literal
  | fields d => "Malformed tuple fields " ++ d.literal
  | missingPointee => "Reference type is missing 'pointee'"
  | typeKind kind => "Unknown type kind '" ++ kind ++ "'"
  | missingKey key => "Missing key '" ++ key ++ "'"
  | shape key expected => "Key '" ++ key ++ "' must be a " ++ expected.name
  | notInteger key d => "'" ++ key ++ "' must be an integer, got " ++ d.literal
  | projection d => "Malformed projection " ++ d.literal
  | projectionElement d => "Unknown projection element " ++ d.literal
  | operand d => "Malformed operand " ++ d.literal
  | constKind d => "Unknown constant kind " ++ d.literal
  | constBytes d => "Malformed constant bytes " ++ d.literal
  | listed what d => "Malformed " ++ what.key ++ " " ++ d.literal
  | binaryOperator d => "Unknown binary operator " ++ d.literal
  | unaryOperator d => "Unknown unary operator " ++ d.literal
  | rvalue d => "Malformed rvalue " ++ d.literal
  | statement d => "Malformed statement " ++ d.literal
  | crate => "Crate document must be a JSON object"
  | crateText e => "Invalid crate JSON: " ++ e.message

/-- The key that a cause is about, where there is one. -/
def key? : Malformed → Option String
  | width _ => some "bits"
  | fields _ => some "fields"
  | missingKey key => some key
  | shape key _ => some key
  | notInteger key _ => some key
  | projection _ => some "projection"
  | constBytes _ => some "bytes"
  | _ => none

/-- How a cause is reported. -/
def problem (m : Malformed) : Problem :=
  { kind := .invalidArgument
    message := m.message
    details := (m.key?.map fun k => [("key", .text k)]).getD [] }

end Malformed

namespace Document

/-- The value under a key that must be present. -/
def require (d : Document) (key : String) : Except Malformed Document :=
  match d.get? key with
  | some v => .ok v
  | none => .error (.missingKey key)

/-- The list under a key. -/
def requireList (d : Document) (key : String) : Except Malformed (List Document) := do
  match ← d.require key with
  | .list ds => .ok ds
  | _ => .error (.shape key .list)

/-- The object under a key. -/
def requireObject (d : Document) (key : String) : Except Malformed Document := do
  match ← d.require key with
  | .object ms => .ok (.object ms)
  | _ => .error (.shape key .object)

/-- The text under a key. -/
def requireText (d : Document) (key : String) : Except Malformed String := do
  match ← d.require key with
  | .text s => .ok s
  | _ => .error (.shape key .text)

/-- A document that must be an integer; `key` says what it is. -/
def integer (key : String) : Document → Except Malformed Int
  | .int n => .ok n
  | d => .error (.notInteger key d)

/-- The integer under a key.  A truth value has the shape of an integer and is refused as not being
one. -/
def requireInteger (d : Document) (key : String) : Except Malformed Int := do
  match ← d.require key with
  | .int n => .ok n
  | .bool b => .error (.notInteger key (.bool b))
  | _ => .error (.shape key .integer)

/-- The flag under a key: absent means no, anything else what it counts as. -/
def flag (d : Document) (key : String) : Bool :=
  ((d.get? key).map holds).getD false

end Document

/-- Read every document of a list, up to the first that cannot be read. -/
def readAll {α : Type} (f : Document → Except Malformed α) :
    List Document → Except Malformed (List α)
  | [] => .ok []
  | d :: ds => do
    let a ← f d
    let as ← readAll f ds
    return a :: as

end MirRange
