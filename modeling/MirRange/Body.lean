import MirRange.Fault

/-!
# Bodies

A body is a list of blocks of statements and the declarations of its locals.  Local 0 is the return
place, and the locals after it, as many as the argument count says, hold the arguments.

The argument count is any integer.  Where it is negative the argument types are those before a
position counted from the end of the declarations, while no local holds an argument.

* `Body`: blocks, declarations and argument count.
* `Body.signature`, `Body.localTy`, `Body.operandTy`: types read off the declarations.
* `Body.toDocument`, `Body.ofDocument`: the document form, in both directions.
-/

namespace MirRange

/-- The declaration of a local. -/
structure LocalDecl where
  ty : Ty
  isMut : Bool

/-- A function body. -/
structure Body where
  blocks : List (List Statement)
  locals : List LocalDecl
  argCount : Int

/-- The field types of a tuple type. -/
def Ty.fields (t : Ty) : Except Fault (List Ty) :=
  match t.fields? with
  | some ts => .ok ts
  | none => .error (.notTuple t)

namespace Body

/-- The position of an end that may count from the back of a list. -/
def clampEnd (length : Nat) (stop : Int) : Nat :=
  if stop < 0 then (stop + length).toNat else min stop.toNat length

/-- The declared types of the arguments. -/
def argTypes (b : Body) : List Ty :=
  ((b.locals.take (clampEnd b.locals.length (1 + b.argCount))).drop 1).map LocalDecl.ty

/-- The locals that hold the arguments. -/
def argLocals (b : Body) : List Local :=
  (List.range b.argCount.toNat).map fun i : Nat => (i : Int) + 1

/-- The argument types and the return type. -/
def signature (b : Body) : Except Fault (List Ty × Ty) :=
  match b.locals with
  | [] => .error .noReturnPlace
  | result :: _ => .ok (b.argTypes, result.ty)

/-- The declared type of a local. -/
def localTy (b : Body) (n : Local) : Except Fault Ty :=
  if 0 ≤ n then
    match b.locals[n.toNat]? with
    | some decl => .ok decl.ty
    | none => .error (.noLocal n)
  else .error (.noLocal n)

/-- The type at the end of a path, where only fields count. -/
def pathTy : List Projection → Ty → Except Fault Ty
  | [], ty => .ok ty
  | .field i :: path, ty =>
    match ty.fields with
    | .error f => .error f
    | .ok fields =>
      match (if 0 ≤ i then fields[i.toNat]? else none) with
      | some inner => pathTy path inner
      | none => .error (.outOfRange i fields.length)
  | _ :: path, ty => pathTy path ty

/-- The declared type of a place. -/
def placeTy (b : Body) (p : Place) : Except Fault Ty := do
  let ty ← b.localTy p.base
  pathTy p.path ty

/-- The declared type of an operand. -/
def operandTy (b : Body) : Operand → Except Fault Ty
  | .copy p => b.placeTy p
  | .move p => b.placeTy p
  | .const c => .ok c.ty

end Body

/-! ### Document form -/

namespace LocalDecl

/-- The document form of a declaration: an immutable local says nothing of it. -/
def toDocument (decl : LocalDecl) : Document :=
  .object <| ("ty", decl.ty.toDocument) :: if decl.isMut then [("mutable", .bool true)] else []

/-- The declaration that a document stands for. -/
def ofDocument (d : Document) : Except Malformed LocalDecl := do
  let ty ← Ty.ofDocument (← d.requireObject "ty")
  return ⟨ty, d.flag "mutable"⟩

end LocalDecl

namespace Body

/-- The document form of a block. -/
def blockDocument (block : List Statement) : Document :=
  .object [("statements", .list (block.map Statement.toDocument))]

/-- The document form of a body. -/
def toDocument (b : Body) : Document :=
  .object [("arg_count", .int b.argCount), ("locals", .list (b.locals.map LocalDecl.toDocument)),
    ("blocks", .list (b.blocks.map blockDocument))]

/-- The block that a document stands for. -/
def readBlock (d : Document) : Except Malformed (List Statement) := do
  readAll Statement.ofDocument (← d.requireList "statements")

/-- The argument count of a body's document; left out, there are no arguments. -/
def readArgCount (d : Document) : Except Malformed Int :=
  match d.get? "arg_count" with
  | none => .ok 0
  | some n => Document.integer "arg_count" n

/-- The body that a document stands for: blocks, declarations and argument count, in this order. -/
def ofDocument (d : Document) : Except Malformed Body := do
  let blocks ← readAll readBlock (← d.requireList "blocks")
  let locals ← readAll LocalDecl.ofDocument (← d.requireList "locals")
  let argCount ← readArgCount d
  return ⟨blocks, locals, argCount⟩

end Body

end MirRange
