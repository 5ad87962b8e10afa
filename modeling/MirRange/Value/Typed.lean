import MirRange.Fault

/-!
# Values of types

* `Value.ofTy`: the greatest abstract value of a type, if the type has abstract values.
* `Value.fits`: whether a value has the variant, item by item, that its type asks for.
* `Ty.isEligible`: the types that a function's locals may have to be analysed at all.
-/

namespace MirRange

namespace Value

mutual

/-- The greatest abstract value of a type.  Only booleans, integers and tuples of such types have
one. -/
def ofTy : Ty → Except Fault Value
  | .bool => .ok (.bool .top)
  | .int _ => .ok (.int .top)
  | .uint _ => .ok (.uint .top)
  | .tuple fields => (ofTys fields).map .tuple
  | ty => .error (.noValue ty)

/-- The greatest abstract values of the types of a list, up to the first without one. -/
def ofTys : List Ty → Except Fault (List Value)
  | [] => .ok []
  | t :: ts => do
    let v ← ofTy t
    let vs ← ofTys ts
    return v :: vs

end

mutual

/-- Whether a value has the shape of a type. -/
def fits : Value → Ty → Bool
  | .bool _, .bool => true
  | .int _, .int _ => true
  | .uint _, .uint _ => true
  | .tuple items, .tuple fields => fitsAll items fields
  | _, _ => false

/-- Whether values have the shapes of types, one by one. -/
def fitsAll : List Value → List Ty → Bool
  | [], [] => true
  | v :: vs, t :: ts => fits v t && fitsAll vs ts
  | _, _ => false

end

end Value

namespace Ty

/-- Whether a type is a number type or that of truth values. -/
def isScalar (t : Ty) : Bool :=
  t.isNumeric || t.isBool

/-- Whether a local of this type keeps its function from being refused: a scalar, or a tuple of
scalars. -/
def isEligible : Ty → Bool
  | .tuple fields => fields.all isScalar
  | t => t.isScalar

end Ty

end MirRange
