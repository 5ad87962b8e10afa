import MirRange.Violation

/-!
# The lattice of abstract values

Values of the same shape are ordered componentwise; values of different shapes cannot be compared or
combined.

* `Value.leq`: the order; on tuples it stops at the first pair that is not in order.
* `Value.join`, `Value.widen`: least upper bound and widening, both instances of `Value.combine`.
* `Value.top`: the greatest value of the same shape.
-/

namespace MirRange.Value

mutual

/-- The order. -/
def leq : Value → Value → Except Violation Bool
  | .bool a, .bool b => .ok (a.leq b)
  | .int a, .int b => .ok (a.leq b)
  | .uint a, .uint b => .ok (a.leq b)
  | .tuple as, .tuple bs =>
    if as.length = bs.length then leqAll as bs else .error (.arities as.length bs.length)
  | .uninit, .uninit => .ok true
  | a, b => .error (.variants a.variant b.variant)

/-- The order on the items of two tuples, from the left and up to the first pair not in order. -/
def leqAll : List Value → List Value → Except Violation Bool
  | a :: as, b :: bs =>
    match leq a b with
    | .error e => .error e
    | .ok false => .ok false
    | .ok true => leqAll as bs
  | _, _ => .ok true

end

mutual

/-- Combine two values of the same shape leaf by leaf. -/
def combine (onTruth : Truth → Truth → Truth) (onInterval : Interval → Interval → Interval) :
    Value → Value → Except Violation Value
  | .bool a, .bool b => .ok (.bool (onTruth a b))
  | .int a, .int b => .ok (.int (onInterval a b))
  | .uint a, .uint b => .ok (.uint (onInterval a b))
  | .tuple as, .tuple bs =>
    if as.length = bs.length then (combineAll onTruth onInterval as bs).map .tuple
    else .error (.arities as.length bs.length)
  | .uninit, .uninit => .ok .uninit
  | a, b => .error (.variants a.variant b.variant)

/-- Combine the items of two tuples, from the left. -/
def combineAll (onTruth : Truth → Truth → Truth) (onInterval : Interval → Interval → Interval) :
    List Value → List Value → Except Violation (List Value)
  | a :: as, b :: bs =>
    match combine onTruth onInterval a b with
    | .error e => .error e
    | .ok c => (combineAll onTruth onInterval as bs).map (c :: ·)
  | _, _ => .ok []

end

/-- The least upper bound. -/
def join (a b : Value) : Except Violation Value :=
  combine Truth.join Interval.join a b

/-- Widening. -/
def widen (a b : Value) : Except Violation Value :=
  combine Truth.widen Interval.widen a b

mutual

/-- The greatest value of the same shape. -/
def top : Value → Value
  | .bool _ => .bool .top
  | .int _ => .int .top
  | .uint _ => .uint .top
  | .tuple items => .tuple (tops items)
  | .uninit => .uninit

/-- The greatest values of the shapes of a list. -/
def tops : List Value → List Value
  | [] => []
  | v :: vs => top v :: tops vs

end

end MirRange.Value
