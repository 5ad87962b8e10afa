import MirRange.Malformed

/-!
# Types

The types that locals of a body are declared with.  Booleans, integers, floats and tuples are told
apart; references, named types and text are carried along so that bodies which use them can be
represented and refused.

* `Ty`: the types; `Ty.text`: how they are written.
* `Ty.range?`: the least and greatest integer of an integer type.
* `Ty.toDocument`, `Ty.ofDocument`: the document form, in both directions.
-/

namespace MirRange

/-- The type of a local. -/
inductive Ty where
  | bool
  | int (bits : Nat)
  | uint (bits : Nat)
  | float (bits : Nat)
  | tuple (fields : List Ty)
  | ref (pointee : Ty) (isMut : Bool)
  | adt (name : String)
  | str
deriving Inhabited

/-- A range of integers, ends included. -/
structure IntRange where
  min : Int
  max : Int
deriving Repr, DecidableEq

/-- Items in parentheses; a single one is followed by a comma. -/
def tupleText : List String → String
  | [item] => "(" ++ item ++ ",)"
  | items => "(" ++ ", ".intercalate items ++ ")"

namespace Ty

mutual

/-- How a type is written. -/
def text : Ty → String
  | .bool => "bool"
  | .int bits => "i" ++ toString bits
  | .uint bits => "u" ++ toString bits
  | .float bits => "f" ++ toString bits
  | .tuple fields => tupleText (texts fields)
  | .ref pointee isMut => (if isMut then "&mut " else "&") ++ text pointee
  | .adt name => name
  | .str => "str"

/-- How the types of a list are written. -/
def texts : List Ty → List String
  | [] => []
  | t :: ts => text t :: texts ts

end

/-- Whether a type is that of truth values. -/
def isBool : Ty → Bool
  | .bool => true
  | _ => false

/-- Whether a type is one of signed integers. -/
def isSigned : Ty → Bool
  | .int _ => true
  | _ => false

/-- Whether a type is one of unsigned integers. -/
def isUnsigned : Ty → Bool
  | .uint _ => true
  | _ => false

/-- Whether a type is one of floats. -/
def isFloat : Ty → Bool
  | .float _ => true
  | _ => false

/-- Whether a type is one of numbers. -/
def isNumeric (t : Ty) : Bool :=
  t.isSigned || t.isUnsigned || t.isFloat

/-- Whether a type is one of tuples. -/
def isTuple : Ty → Bool
  | .tuple _ => true
  | _ => false

/-- The field types of a tuple type. -/
def fields? : Ty → Option (List Ty)
  | .tuple fields => some fields
  | _ => none

/-- The integers of an integer type. -/
def range? : Ty → Option IntRange
  | .int bits => some ⟨-(Nat.pow 2 (bits - 1) : Int), (Nat.pow 2 (bits - 1) : Int) - 1⟩
  | .uint bits => some ⟨0, (Nat.pow 2 bits : Int) - 1⟩
  | _ => none

/-! ### Document form -/

mutual

/-- The document form of a type. -/
def toDocument : Ty → Document
  | .bool => .object [("kind", .text "bool")]
  | .int bits => .object [("kind", .text "int"), ("bits", .int bits)]
  | .uint bits => .object [("kind", .text "uint"), ("bits", .int bits)]
  | .float bits => .object [("kind", .text "float"), ("bits", .int bits)]
  | .tuple fields => .object [("kind", .text "tuple"), ("fields", .list (toDocuments fields))]
  | .ref pointee isMut =>
    .object [("kind", .text "ref"), ("pointee", toDocument pointee), ("mutable", .bool isMut)]
  | .adt name => .object [("kind", .text "adt"), ("name", .text name)]
  | .str => .object [("kind", .text "str")]

/-- The document forms of the types of a list. -/
def toDocuments : List Ty → List Document
  | [] => []
  | t :: ts => toDocument t :: toDocuments ts

end

/-- The width of a number type: 64 where it is left open or that of a pointer. -/
def readWidth (d : Document) : Except Malformed Nat :=
  match d.get? "bits" with
  | none => .ok 64
  | some .null => .ok 64
  | some (.int n) => if n > 0 then .ok n.toNat else .error (.width (.int n))
  | some (.text s) => if s = "size" then .ok 64 else .error (.width (.text s))
  | some other => .error (.width other)

mutual

/-- The type that a document stands for. -/
def ofDocument (d : Document) : Except Malformed Ty :=
  match d.get? "kind" with
  | some (.text kind) =>
    if kind = "bool" then .ok .bool
    else if kind = "int" then (readWidth d).map .int
    else if kind = "uint" then (readWidth d).map .uint
    else if kind = "float" then (readWidth d).map .float
    else if kind = "tuple" then
      match h : d.get? "fields" with
      | none => .ok (.tuple [])
      | some (.list ds) =>
        have := Document.sizeOf_get? h
        (ofDocuments ds).map .tuple
      | some fields => .error (.fields fields)
    else if kind = "ref" then
      match h : d.get? "pointee" with
      | none => .error .missingPointee
      | some pointee =>
        have := Document.sizeOf_get? h
        (ofDocument pointee).map fun t => .ref t (d.flag "mutable")
    else if kind = "adt" then .ok (.adt (((d.get? "name").map Document.display).getD ""))
    else if kind = "str" then .ok .str
    else .error (.typeKind kind)
  | _ => .error (.type d)
termination_by sizeOf d
decreasing_by
  all_goals simp_all
  all_goals omega

/-- The types that the documents of a list stand for. -/
def ofDocuments (ds : List Document) : Except Malformed (List Ty) :=
  match ds with
  | [] => .ok []
  | d :: ds => do
    let t ← ofDocument d
    let ts ← ofDocuments ds
    return t :: ts
termination_by sizeOf ds

end

end Ty

end MirRange
