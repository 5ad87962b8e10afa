import MirRange.Ty

/-!
# Places

A place is a local followed by steps into it: a field, what it points to, or an item chosen by
another local.

* `Projection`, `Place`: the steps and the whole path.
* `Place.toDocument`, `Place.ofDocument`: the document form, in both directions.
-/

namespace MirRange

/-- The number of a local; local 0 is the return place. -/
abbrev Local := Int

/-- The name of a local. -/
def localText (n : Local) : String :=
  "_" ++ toString n

/-- A step into a value. -/
inductive Projection where
  | field (index : Int)
  | deref
  | index (chosen : Local)
deriving Repr, DecidableEq

namespace Projection

/-- How a step is written. -/
def text : Projection → String
  | .field i => "." ++ toString i
  | .deref => "*"
  | .index n => "[" ++ localText n ++ "]"

/-- The document form of a step. -/
def toDocument : Projection → Document
  | .field i => .object [("field", .int i)]
  | .deref => .object [("deref", .bool true)]
  | .index n => .object [("index", .int n)]

/-- The step that a document stands for: a field before an index before a dereference. -/
def ofDocument (d : Document) : Except Malformed Projection :=
  match d.get? "field" with
  | some i => (Document.integer "field" i).map .field
  | none =>
    match d.get? "index" with
    | some n => (Document.integer "index" n).map .index
    | none =>
      match d.get? "deref" with
      | some _ => .ok .deref
      | none => .error (.projectionElement d)

end Projection

/-- A local and a path into it. -/
structure Place where
  base : Local
  path : List Projection
deriving Repr, DecidableEq

namespace Place

/-- How a place is written. -/
def text (p : Place) : String :=
  localText p.base ++ "".intercalate (p.path.map Projection.text)

/-- The document form of a place: an empty path is left out. -/
def toDocument (p : Place) : Document :=
  .object <| ("local", .int p.base)
    :: if p.path.isEmpty then [] else [("projection", .list (p.path.map Projection.toDocument))]

/-- The place that a document stands for. -/
def ofDocument (d : Document) : Except Malformed Place := do
  let base ← d.requireInteger "local"
  match d.get? "projection" with
  | none => return ⟨base, []⟩
  | some (.list ds) => return ⟨base, ← readAll Projection.ofDocument ds⟩
  | some other => .error (.projection other)

end Place

end MirRange
