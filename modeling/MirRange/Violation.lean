import MirRange.Operand
import MirRange.Value

/-!
# Violated preconditions

Some operations are only meant for operands that a well-typed caller supplies.  Calling them with
others is not a problem of the analysed program and is never reported as one: it ends the analysis.

* `Violation`: the ways in which a precondition can be violated, with their wording.
* `Truth.ofConst`: decoding a boolean constant, which is one of these operations.
-/

namespace MirRange

/-- A precondition that was not met. -/
inductive Violation where
  /-- Two values of different variants were combined. -/
  | variants (left right : Variant)
  /-- Two tuples of different arity were combined. -/
  | arities (left right : Nat)
  /-- A truth value was asked of a constant of another type. -/
  | constType (ty : Ty)
  /-- A truth value was asked of a constant without bytes of its own. -/
  | constKind (kind : ConstKind)
  /-- A truth value was asked of anything but one initialised byte. -/
  | constBytes (bytes : List (Option Int))

/-- The wording of a violation. -/
def Violation.message : Violation → String
  | .variants l r =>
    "Can only perform operations on abstract values of the same kind, got " ++ l.name ++ " and "
      ++ r.name
  | .arities m n => "Cannot combine tuples of arity " ++ toString m ++ " and " ++ toString n
  | .constType ty =>
    "Cannot construct an abstract boolean from a constant of type '" ++ ty.text ++ "'"
  | .constKind kind => "Boolean constants of kind '" ++ kind.name ++ "' cannot be decoded"
  | .constBytes bytes => "Unexpected bytes " ++ Const.bytesText bytes ++ " for a boolean constant"

/-- The truth value of a boolean constant: its single byte is zero for false. -/
def Truth.ofConst (c : Const) : Except Violation Truth :=
  if !c.ty.isBool then .error (.constType c.ty)
  else if c.kind ≠ .allocated then .error (.constKind c.kind)
  else
    match c.bytes with
    | [some n] => .ok (.ofBool (n != 0))
    | bytes => .error (.constBytes bytes)

end MirRange
