import MirRange.Place

/-!
# Constants and operands

* `Const`: a constant by its type and its encoded bytes, some of which may be left uninitialised.
* `Operand`: a place that is copied or moved from, or a constant.
* `Operand.toDocument`, `Operand.ofDocument`: the document form, in both directions.
-/

namespace MirRange

/-- How far a constant has been evaluated. -/
inductive ConstKind where
  | allocated
  | zeroSized
  | unevaluated
deriving Repr, DecidableEq

namespace ConstKind

/-- The name of a kind in documents. -/
def name : ConstKind → String
  | .allocated => "allocated"
  | .zeroSized => "zero_sized"
  | .unevaluated => "unevaluated"

/-- All kinds. -/
def all : List ConstKind :=
  [.allocated, .zeroSized, .unevaluated]

/-- The kind with a given name. -/
def ofName? (s : String) : Option ConstKind :=
  all.find? fun k => k.name == s

/-- The kind that a constant's document names; an unnamed one is allocated. -/
def ofDocument (d : Document) : Except Malformed ConstKind :=
  match d.get? "kind" with
  | none => .ok .allocated
  | some (.text s) =>
    match ofName? s with
    | some kind => .ok kind
    | none => .error (.constKind (.text s))
  | some other => .error (.constKind other)

end ConstKind

/-- A constant: its type and its bytes, where `none` is an uninitialised byte. -/
structure Const where
  ty : Ty
  bytes : List (Option Int)
  kind : ConstKind

namespace Const

/-- The document form of a byte. -/
def byteDocument : Option Int → Document
  | some n => .int n
  | none => .null

/-- How the bytes of a constant are written. -/
def bytesText (bytes : List (Option Int)) : String :=
  (Document.list (bytes.map byteDocument)).literal

/-- How a constant is written. -/
def text (c : Const) : String :=
  "const " ++ c.ty.text ++ " " ++ bytesText c.bytes

/-- The document form of a constant. -/
def toDocument (c : Const) : Document :=
  .object [("ty", c.ty.toDocument), ("bytes", .list (c.bytes.map byteDocument)),
    ("kind", .text c.kind.name)]

/-- The byte that a document stands for. -/
def byte? : Document → Option (Option Int)
  | .null => some none
  | .int n => some (some n)
  | _ => none

/-- The bytes that the documents of a list stand for, if all of them are bytes. -/
def bytes? : List Document → Option (List (Option Int))
  | [] => some []
  | d :: ds => do
    let b ← byte? d
    let bs ← bytes? ds
    return b :: bs

/-- The bytes of a constant's document; left out, there are none. -/
def readBytes (d : Document) : Except Malformed (List (Option Int)) :=
  match d.get? "bytes" with
  | none => .ok []
  | some (.list ds) =>
    match bytes? ds with
    | some bytes => .ok bytes
    | none => .error (.constBytes (.list ds))
  | some other => .error (.constBytes other)

/-- The constant that a document stands for. -/
def ofDocument (d : Document) : Except Malformed Const := do
  let kind ← ConstKind.ofDocument d
  let bytes ← readBytes d
  let ty ← Ty.ofDocument (← d.requireObject "ty")
  return ⟨ty, bytes, kind⟩

end Const

/-- What an operation works on. -/
inductive Operand where
  | copy (place : Place)
  | move (place : Place)
  | const (c : Const)

namespace Operand

/-- How an operand is written. -/
def text : Operand → String
  | .copy p => "copy " ++ p.text
  | .move p => "move " ++ p.text
  | .const c => c.text

/-- The document form of an operand. -/
def toDocument : Operand → Document
  | .copy p => .object [("copy", p.toDocument)]
  | .move p => .object [("move", p.toDocument)]
  | .const c => .object [("const", c.toDocument)]

/-- The operand that a document stands for: a copy before a move before a constant. -/
def ofDocument (d : Document) : Except Malformed Operand :=
  match d.get? "copy" with
  | some p => (Place.ofDocument p).map .copy
  | none =>
    match d.get? "move" with
    | some p => (Place.ofDocument p).map .move
    | none =>
      match d.get? "const" with
      | some (.object ms) => (Const.ofDocument (.object ms)).map .const
      | some _ => .error (.shape "const" .object)
      | none => .error (.operand d)

end Operand

end MirRange
