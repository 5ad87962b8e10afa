import MirRange.Fault

/-!
# Items of tuples

* `Value.get?`: the item at an index, if the tuple has it; only tuples can be indexed.
* `Value.field`: the same, where a missing item is a fault.
* `Value.set`: a tuple with one item replaced.
* `Value.follow`, `Value.update`: reading and replacing along a path of fields.
-/

namespace MirRange.Value

/-- The number of items of a tuple. -/
def arity : Value → Nat
  | .tuple items => items.length
  | _ => 0

/-- The item of a list at an index that may be negative. -/
def item? (items : List Value) (i : Int) : Option Value :=
  if 0 ≤ i then items[i.toNat]? else none

/-- The item of a tuple at an index, if there is one. -/
def get? : Value → Int → Except Fault (Option Value)
  | .tuple items, i => .ok (item? items i)
  | v, _ => .error (.notIndexable v.variant)

/-- The item of a tuple at an index that must be in range. -/
def field (v : Value) (i : Int) : Except Fault Value :=
  match v.get? i with
  | .error e => .error e
  | .ok none => .error (.outOfRange i v.arity)
  | .ok (some w) => .ok w

/-- A tuple with the item at an index replaced. -/
def set : Value → Int → Value → Except Fault Value
  | .tuple items, i, v =>
    if 0 ≤ i ∧ i < items.length then .ok (.tuple (items.set i.toNat v))
    else .error (.outOfRange i items.length)
  | w, _, _ => .error (.notIndexable w.variant)

/-- The part of a value at the end of a path; `place` is named in faults. -/
def follow (place : Place) : List Projection → Value → Except Fault Value
  | [], v => .ok v
  | .field i :: path, v => do
    let inner ← v.field i
    follow place path inner
  | step :: _, _ => .error (.unsupportedProjection step place)

/-- The value with the part at the end of a path replaced; `place` is named in faults. -/
def update (place : Place) (new : Value) : List Projection → Value → Except Fault Value
  | [], _ => .ok new
  | .field i :: path, v => do
    let inner ← v.field i
    let changed ← update place new path inner
    v.set i changed
  | step :: _, _ => .error (.unsupportedProjection step place)

end MirRange.Value
