import MirRange.Statement
import MirRange.Value

/-!
# Faults

Why a function, a body or a statement cannot be evaluated.  A fault is part of the result of an
analysis: it is collected and reported.

* `Fault`: the causes; `Fault.message`: their wording.
* `Fault.problem`: how a cause is reported.
-/

namespace MirRange

/-- Why something cannot be evaluated. -/
inductive Fault where
  /-- A type has no abstract values. -/
  | noValue (ty : Ty)
  /-- A value without items was indexed. -/
  | notIndexable (variant : Variant)
  | unsupportedStatement (s : Statement)
  | unsupportedRvalue (rv : Rvalue)
  | unsupportedConst (ty : Ty)
  | unsupportedProjection (step : Projection) (place : Place)
  | unsupportedOperator (op : BinOp) (left right : Variant)
  /-- A local was read before it was written. -/
  | unset (place : Place)
  /-- A function has locals without abstract values. -/
  | ineligible (function : String) (types : List Ty)
  | outOfRange (index : Int) (arity : Nat)
  | notTuple (ty : Ty)
  | noReturnPlace
  | noLocal (n : Local)
  | argumentCount (expected actual : Nat)
  | argumentType (n : Local) (value : Value) (ty : Ty)
  | noFunction (crate name : String)

namespace Fault

/-- The kind of a cause. -/
def kind : Fault → ProblemKind
  | noValue .. | notIndexable .. | unsupportedStatement .. | unsupportedRvalue ..
  | unsupportedConst .. | unsupportedProjection .. | unsupportedOperator .. => .notImplemented
  | unset .. | ineligible .. => .interpreter
  | outOfRange .. => .indexOutOfRange
  | notTuple .. | noReturnPlace | noLocal .. | argumentCount .. | argumentType ..
  | noFunction .. => .invalidArgument

/-- The wording of a cause. -/
def message : Fault → String
  | noValue ty => "No abstract value for type '" ++ ty.text ++ "'"
  | notIndexable v => "Cannot index into a " ++ v.name
  | unsupportedStatement s => "Statement '" ++ s.text ++ "' is not supported"
  | unsupportedRvalue rv => "Rvalue '" ++ rv.text ++ "' is not supported"
  | unsupportedConst ty => "Constants of type '" ++ ty.text ++ "' are not supported"
  | unsupportedProjection step place =>
    "Projection '" ++ step.text ++ "' in '" ++ place.text ++ "' is not supported"
  | unsupportedOperator op l r =>
    "Operator " ++ op.name ++ " is not supported on " ++ l.name ++ " and " ++ r.name
  | unset place => "Read of unset local " ++ localText place.base
  | ineligible function _ =>
    "Function '" ++ function ++ "' has locals the interpreter cannot represent"
  | outOfRange index arity => (Problem.outOfRange index arity).message
  | notTuple ty => "Type '" ++ ty.text ++ "' is not a tuple"
  | noReturnPlace => "Body declares no return place"
  | noLocal n => "Body has no local " ++ localText n
  | argumentCount .. =>
    "Must supply same number of arguments as the function takes as input when interpreting it."
  | argumentType n value ty =>
    "Argument " ++ localText n ++ " is " ++ value.text ++ ", which does not match its declared type '"
      ++ ty.text ++ "'"
  | noFunction crate name => "Crate '" ++ crate ++ "' has no function '" ++ name ++ "'"

/-- The details of a cause. -/
def details : Fault → Members
  | noValue ty => [("type", .text ty.text)]
  | unsupportedStatement s => [("statement", .text s.form)]
  | unsupportedRvalue rv => [("rvalue", .text rv.form)]
  | unsupportedConst ty => [("type", .text ty.text)]
  | unsupportedOperator op _ _ => [("op", .text op.name)]
  | unset place => [("place", .text place.text)]
  | ineligible _ types => [("locals", .list (types.map fun t => .text t.text))]
  | outOfRange index arity => (Problem.outOfRange index arity).details
  | argumentCount expected actual => [("expected", .int expected), ("actual", .int actual)]
  | argumentType n value ty =>
    [("local", .int n), ("type", .text ty.text), ("value", value.toDocument)]
  | notIndexable .. | unsupportedProjection .. | notTuple .. | noReturnPlace | noLocal ..
  | noFunction .. => []

/-- How a cause is reported. -/
def problem (f : Fault) : Problem :=
  { kind := f.kind, message := f.message, details := f.details }

end Fault

end MirRange
