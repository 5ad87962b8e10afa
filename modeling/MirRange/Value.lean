import MirRange.Interval
import MirRange.Malformed
import MirRange.Ty

/-!
# Abstract values

What is known of the contents of a local: a truth value, an interval of signed or unsigned integers,
a tuple of abstract values, or that the local holds no value.

* `Value`: the abstract values; `Value.text`: how they are written.
* `Value.toDocument`, `Value.ofDocument`: the document form, in both directions.
-/

namespace MirRange

/-- What is known of the contents of a local. -/
inductive Value where
  | bool (t : Truth)
  | int (i : Interval)
  | uint (i : Interval)
  | tuple (items : List Value)
  | uninit
deriving Inhabited

/-- The variants of abstract values. -/
inductive Variant where
  | bool
  | int
  | uint
  | tuple
  | uninit
deriving Repr, DecidableEq

/-- The name of a variant in messages. -/
def Variant.name : Variant → String
  | .bool => "BoolValue"
  | .int => "IntIntervalValue"
  | .uint => "UintIntervalValue"
  | .tuple => "TupleValue"
  | .uninit => "Uninit"

namespace Value

/-- The variant of a value. -/
def variant : Value → Variant
  | .bool _ => .bool
  | .int _ => .int
  | .uint _ => .uint
  | .tuple _ => .tuple
  | .uninit => .uninit

mutual

/-- How a value is written. -/
def text : Value → String
  | .bool t => t.text
  | .int i => i.text
  | .uint i => i.text
  | .tuple items => tupleText (texts items)
  | .uninit => "uninit"

/-- How the values of a list are written. -/
def texts : List Value → List String
  | [] => []
  | v :: vs => text v :: texts vs

end

end Value

/-! ### Document form -/

/-- The document form of a bound. -/
def Bound.toDocument : Bound → Document
  | .fin n => .int n
  | b => .text b.text

/-- The bound that a document stands for. -/
def Bound.ofDocument : Document → Except Malformed Bound
  | .int n => .ok (.fin n)
  | .text s =>
    if s = "-inf" then .ok .negInf
    else if s = "+inf" then .ok .posInf
    else .error (.bound (.text s))
  | d => .error (.bound d)

/-- The document form of an interval. -/
def Interval.toDocument (i : Interval) : Document :=
  .list [i.lower.toDocument, i.upper.toDocument]

/-- The interval that a document stands for; its bounds must be in order. -/
def Interval.ofDocument : Document → Except Malformed Interval
  | .list [a, b] => do
    let lower ← Bound.ofDocument a
    let upper ← Bound.ofDocument b
    if Bound.lt upper lower then .error (.inverted (.list [a, b])) else return ⟨lower, upper⟩
  | d => .error (.pair d)

namespace Value

mutual

/-- The document form of a value. -/
def toDocument : Value → Document
  | .bool t => .object [("bool", .text t.text)]
  | .int i => .object [("int", i.toDocument)]
  | .uint i => .object [("uint", i.toDocument)]
  | .tuple items => .object [("tuple", .list (toDocuments items))]
  | .uninit => .text "uninit"

/-- The document forms of the values of a list. -/
def toDocuments : List Value → List Document
  | [] => []
  | v :: vs => toDocument v :: toDocuments vs

end

/-- The truth value that a document names. -/
def readTruth (d : Document) : Except Malformed Value :=
  match d with
  | .text s =>
    match Truth.ofText? s with
    | some t => .ok (.bool t)
    | none => .error (.truth d)
  | _ => .error (.truth d)

/-- A value without parts, from the name of its kind and the document under that name. -/
def readLeaf (kind : String) (d : Document) : Except Malformed Value :=
  if kind = "bool" then readTruth d
  else if kind = "int" then (Interval.ofDocument d).map .int
  else if kind = "uint" then (Interval.ofDocument d).map .uint
  else .error (.valueKind kind)

mutual

/-- The value that a document stands for. -/
def ofDocument : Document → Except Malformed Value
  | .text s => if s = "uninit" then .ok .uninit else .error (.value (.text s))
  | .object [(kind, .list ds)] =>
    if kind = "tuple" then (ofDocuments ds).map .tuple else readLeaf kind (.list ds)
  | .object [(kind, d)] => readLeaf kind d
  | d => .error (.value d)

/-- The values that the documents of a list stand for. -/
def ofDocuments : List Document → Except Malformed (List Value)
  | [] => .ok []
  | d :: ds => do
    let v ← ofDocument d
    let vs ← ofDocuments ds
    return v :: vs

end

end Value

end MirRange
