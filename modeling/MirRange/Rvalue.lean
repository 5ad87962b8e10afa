import MirRange.Operand

/-!
# Operators and rvalues

* `BinOp`, `UnOp`: the operators.
* `Rvalue`: what can stand on the right of an assignment.
* `Rvalue.toDocument`, `Rvalue.ofDocument`: the document form, in both directions.
-/

namespace MirRange

/-- The binary operators. -/
inductive BinOp where
  | add | sub | mul | div | rem
  | bitXor | bitAnd | bitOr | shl | shr
  | eq | lt | le | ne | ge | gt
  | offset
deriving Repr, DecidableEq

namespace BinOp

/-- The name of an operator. -/
def name : BinOp → String
  | add => "Add"
  | sub => "Sub"
  | mul => "Mul"
  | div => "Div"
  | rem => "Rem"
  | bitXor => "BitXor"
  | bitAnd => "BitAnd"
  | bitOr => "BitOr"
  | shl => "Shl"
  | shr => "Shr"
  | eq => "Eq"
  | lt => "Lt"
  | le => "Le"
  | ne => "Ne"
  | ge => "Ge"
  | gt => "Gt"
  | offset => "Offset"

/-- All operators. -/
def all : List BinOp :=
  [add, sub, mul, div, rem, bitXor, bitAnd, bitOr, shl, shr, eq, lt, le, ne, ge, gt, offset]

/-- The operator with a given name. -/
def ofName? (s : String) : Option BinOp :=
  all.find? fun op => op.name == s

/-- The operator that a document names. -/
def ofDocument : Document → Except Malformed BinOp
  | .text s =>
    match ofName? s with
    | some op => .ok op
    | none => .error (.binaryOperator (.text s))
  | d => .error (.binaryOperator d)

end BinOp

/-- The unary operators. -/
inductive UnOp where
  | not | neg
deriving Repr, DecidableEq

namespace UnOp

/-- The name of an operator. -/
def name : UnOp → String
  | not => "Not"
  | neg => "Neg"

/-- All operators. -/
def all : List UnOp :=
  [not, neg]

/-- The operator with a given name. -/
def ofName? (s : String) : Option UnOp :=
  all.find? fun op => op.name == s

/-- The operator that a document names. -/
def ofDocument : Document → Except Malformed UnOp
  | .text s =>
    match ofName? s with
    | some op => .ok op
    | none => .error (.unaryOperator (.text s))
  | d => .error (.unaryOperator d)

end UnOp

/-- What can stand on the right of an assignment. -/
inductive Rvalue where
  | use (x : Operand)
  | binary (op : BinOp) (left right : Operand)
  | checked (op : BinOp) (left right : Operand)
  | unary (op : UnOp) (x : Operand)
  | ref (place : Place) (isMut : Bool)
  | aggregate (items : List Operand)
  | cast (x : Operand) (ty : Ty)

namespace Rvalue

/-- The name of an rvalue's form. -/
def form : Rvalue → String
  | .use .. => "Use"
  | .binary .. => "BinaryOp"
  | .checked .. => "CheckedBinaryOp"
  | .unary .. => "UnaryOp"
  | .ref .. => "Ref"
  | .aggregate .. => "Aggregate"
  | .cast .. => "Cast"

/-- How an rvalue is written. -/
def text : Rvalue → String
  | .use x => x.text
  | .binary op l r => op.name ++ "(" ++ l.text ++ ", " ++ r.text ++ ")"
  | .checked op l r => "Checked" ++ op.name ++ "(" ++ l.text ++ ", " ++ r.text ++ ")"
  | .unary op x => op.name ++ "(" ++ x.text ++ ")"
  | .ref p isMut => (if isMut then "&mut " else "&") ++ p.text
  | .aggregate items => "(" ++ ", ".intercalate (items.map Operand.text) ++ ")"
  | .cast x ty => x.text ++ " as " ++ ty.text

/-- The document form of an rvalue. -/
def toDocument : Rvalue → Document
  | .use x => .object [("use", x.toDocument)]
  | .binary op l r =>
    .object [("binary_op", .list [.text op.name, l.toDocument, r.toDocument])]
  | .checked op l r =>
    .object [("checked_binary_op", .list [.text op.name, l.toDocument, r.toDocument])]
  | .unary op x => .object [("unary_op", .list [.text op.name, x.toDocument])]
  | .ref p isMut => .object [("ref", .object [("place", p.toDocument), ("mutable", .bool isMut)])]
  | .aggregate items => .object [("aggregate", .list (items.map Operand.toDocument))]
  | .cast x ty => .object [("cast", .object [("operand", x.toDocument), ("ty", ty.toDocument)])]

/-- An operator and two operands, from a list of three. -/
def readBinary (what : Listed) : Document → Except Malformed (BinOp × Operand × Operand)
  | .list [op, l, r] => do
    let op ← BinOp.ofDocument op
    let l ← Operand.ofDocument l
    let r ← Operand.ofDocument r
    return (op, l, r)
  | d => .error (.listed what d)

/-- An operator and an operand, from a list of two. -/
def readUnary : Document → Except Malformed (UnOp × Operand)
  | .list [op, x] => do
    let op ← UnOp.ofDocument op
    let x ← Operand.ofDocument x
    return (op, x)
  | d => .error (.listed .unary d)

/-- A borrowed place. -/
def readRef (d : Document) : Except Malformed Rvalue := do
  let place ← Place.ofDocument (← d.requireObject "place")
  return .ref place (d.flag "mutable")

/-- An operand and the type it is converted to. -/
def readCast (d : Document) : Except Malformed Rvalue := do
  let x ← Operand.ofDocument (← d.requireObject "operand")
  let ty ← Ty.ofDocument (← d.requireObject "ty")
  return .cast x ty

/-- The rvalue that a document stands for.  The keys are tried in a fixed order, and the first one
that is present decides. -/
def ofDocument (d : Document) : Except Malformed Rvalue :=
  match d.get? "use" with
  | some x => (Operand.ofDocument x).map .use
  | none =>
  match d.get? "binary_op" with
  | some x => (readBinary .binary x).map fun (op, l, r) => .binary op l r
  | none =>
  match d.get? "checked_binary_op" with
  | some x => (readBinary .checked x).map fun (op, l, r) => .checked op l r
  | none =>
  match d.get? "unary_op" with
  | some x => (readUnary x).map fun (op, x) => .unary op x
  | none =>
  match d.get? "ref" with
  | some x => readRef x
  | none =>
  match d.get? "aggregate" with
  | some (.list ds) => (readAll Operand.ofDocument ds).map .aggregate
  | some _ => .error (.shape "aggregate" .list)
  | none =>
  match d.get? "cast" with
  | some x => readCast x
  | none => .error (.rvalue d)

end Rvalue

end MirRange
