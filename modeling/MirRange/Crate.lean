import MirRange.Body

/-!
# Crates

A crate is a named list of functions.  Names need not be distinct; the first function with a name is
the one that is found.

* `Function`, `Crate`: a named body, and a named list of them.
* `Crate.find`: the first function with a given name.
* `Crate.toDocument`, `Crate.ofDocument`: the document form, in both directions.
* `Crate.toText`, `Crate.ofText`: the same as JSON text.
-/

namespace MirRange

/-- A named body. -/
structure Function where
  name : String
  body : Body

/-- The functions of a crate. -/
structure Crate where
  name : String
  functions : List Function

namespace Function

/-- The document form of a function. -/
def toDocument (f : Function) : Document :=
  .object [("name", .text f.name), ("body", f.body.toDocument)]

/-- The function that a document stands for. -/
def ofDocument (d : Document) : Except Malformed Function := do
  let name ← d.requireText "name"
  let body ← Body.ofDocument (← d.requireObject "body")
  return ⟨name, body⟩

end Function

namespace Crate

/-- The first function with a given name. -/
def find (c : Crate) (name : String) : Except Fault Function :=
  match c.functions.find? fun f => f.name == name with
  | some f => .ok f
  | none => .error (.noFunction c.name name)

/-- The document form of a crate. -/
def toDocument (c : Crate) : Document :=
  .object [("crate", .text c.name), ("functions", .list (c.functions.map Function.toDocument))]

/-- The text of the document form. -/
def toText (c : Crate) (indent : Option Int) : String :=
  c.toDocument.toText indent

/-- The crate that a document stands for.  A name that is not text is taken as it displays. -/
def ofDocument (d : Document) : Except Malformed Crate :=
  match d with
  | .object _ => do
    let functions ← readAll Function.ofDocument (← d.requireList "functions")
    return ⟨((d.get? "crate").map Document.display).getD "main", functions⟩
  | _ => .error .crate

/-- The crate that a JSON text stands for. -/
def ofText (text : String) : Except Malformed Crate :=
  match Document.ofText text with
  | .error e => .error (.crateText e)
  | .ok d => ofDocument d

end Crate

end MirRange
