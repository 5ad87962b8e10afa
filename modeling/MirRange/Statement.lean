import MirRange.Rvalue

/-!
# Statements

* `Statement`: assignments, deinitialisations, storage markers and no-operations.
* `Statement.toDocument`, `Statement.ofDocument`: the document form, in both directions.
-/

namespace MirRange

/-- A step of a body. -/
inductive Statement where
  | assign (place : Place) (value : Rvalue)
  | deinit (place : Place)
  | storageLive (n : Local)
  | storageDead (n : Local)
  | nop

namespace Statement

/-- The name of a statement's form. -/
def form : Statement → String
  | .assign .. => "Assign"
  | .deinit .. => "Deinit"
  | .storageLive .. => "StorageLive"
  | .storageDead .. => "StorageDead"
  | .nop => "Nop"

/-- How a statement is written. -/
def text : Statement → String
  | .assign p rv => p.text ++ " = " ++ rv.text
  | .deinit p => "Deinit(" ++ p.text ++ ")"
  | .storageLive n => "StorageLive(" ++ localText n ++ ")"
  | .storageDead n => "StorageDead(" ++ localText n ++ ")"
  | .nop => "nop"

/-- The document form of a statement. -/
def toDocument : Statement → Document
  | .assign p rv =>
    .object [("assign", .object [("place", p.toDocument), ("rvalue", rv.toDocument)])]
  | .deinit p => .object [("deinit", p.toDocument)]
  | .storageLive n => .object [("storage_live", .int n)]
  | .storageDead n => .object [("storage_dead", .int n)]
  | .nop => .object [("nop", .bool true)]

/-- An assignment: its place is read before its value is looked for. -/
def readAssign (d : Document) : Except Malformed Statement := do
  let place ← Place.ofDocument (← d.requireObject "place")
  let value ← Rvalue.ofDocument (← d.requireObject "rvalue")
  return .assign place value

/-- The statement that a document stands for.  The keys are tried in a fixed order, and the first
one that is present decides. -/
def ofDocument (d : Document) : Except Malformed Statement :=
  match d.get? "assign" with
  | some x => readAssign x
  | none =>
  match d.get? "deinit" with
  | some x => (Place.ofDocument x).map .deinit
  | none =>
  match d.get? "storage_live" with
  | some x => (Document.integer "storage_live" x).map .storageLive
  | none =>
  match d.get? "storage_dead" with
  | some x => (Document.integer "storage_dead" x).map .storageDead
  | none =>
  match d.get? "nop" with
  | some _ => .ok .nop
  | none => .error (.statement d)

end Statement

end MirRange
