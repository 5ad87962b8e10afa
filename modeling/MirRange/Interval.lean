import MirRange.Truth

/-!
# Bounds and intervals

An interval is a pair of bounds, each an integer or infinite.  Nothing keeps the lower bound below
the upper one: an inverted interval can be formed and every operation is defined on it.

* `Bound`: integers with an element below and one above all of them.
* `Interval`: pairs of bounds, with order, join and widening.
* `Interval.add`, `Interval.equals`, `Interval.lessThan`: the operations of the program on
  intervals.
-/

namespace MirRange

/-- An end of an interval. -/
inductive Bound where
  | negInf
  | fin (n : Int)
  | posInf
deriving Repr, DecidableEq

namespace Bound

/-- The text of a bound. -/
def text : Bound → String
  | negInf => "-inf"
  | fin n => toString n
  | posInf => "+inf"

/-- Whether a bound is an integer. -/
def isFinite : Bound → Bool
  | fin _ => true
  | _ => false

/-- The strict order. -/
def lt : Bound → Bound → Bool
  | negInf, negInf => false
  | negInf, _ => true
  | fin _, negInf => false
  | fin a, fin b => a < b
  | fin _, posInf => true
  | posInf, _ => false

/-- The order. -/
def le (a b : Bound) : Bool :=
  !lt b a

/-- The lesser of two bounds. -/
def min (a b : Bound) : Bound :=
  if lt b a then b else a

/-- The greater of two bounds. -/
def max (a b : Bound) : Bound :=
  if lt a b then b else a

/-- Addition: an infinite bound absorbs, and of two different ones the lower wins. -/
def add : Bound → Bound → Bound
  | negInf, _ => negInf
  | _, negInf => negInf
  | posInf, _ => posInf
  | _, posInf => posInf
  | fin a, fin b => fin (a + b)

end Bound

/-- The integers from a lower to an upper bound. -/
structure Interval where
  lower : Bound
  upper : Bound
deriving Repr, DecidableEq

namespace Interval

/-- The interval of all integers. -/
def top : Interval :=
  ⟨.negInf, .posInf⟩

/-- The interval of one integer. -/
def single (n : Int) : Interval :=
  ⟨.fin n, .fin n⟩

/-- The interval between two integers. -/
def between (a b : Int) : Interval :=
  ⟨.fin a, .fin b⟩

/-- The text of an interval. -/
def text (i : Interval) : String :=
  "[" ++ i.lower.text ++ ", " ++ i.upper.text ++ "]"

/-- Whether an interval has no bounds. -/
def isTop (i : Interval) : Bool :=
  i.lower = .negInf && i.upper = .posInf

/-- Whether an interval is a single integer. -/
def isSingle (i : Interval) : Bool :=
  i.lower.isFinite && i.lower = i.upper

/-- Whether an integer lies in an interval. -/
def contains (i : Interval) (n : Int) : Bool :=
  Bound.le i.lower (.fin n) && Bound.le (.fin n) i.upper

/-- The order: the first interval lies within the second. -/
def leq (i j : Interval) : Bool :=
  Bound.le j.lower i.lower && Bound.le i.upper j.upper

/-- The least interval around two others. -/
def join (i j : Interval) : Interval :=
  ⟨Bound.min i.lower j.lower, Bound.max i.upper j.upper⟩

/-- Widening: a bound that the second interval exceeds becomes infinite. -/
def widen (i j : Interval) : Interval :=
  ⟨if Bound.lt j.lower i.lower then .negInf else i.lower,
    if Bound.lt i.upper j.upper then .posInf else i.upper⟩

/-- The sums of integers from two intervals. -/
def add (i j : Interval) : Interval :=
  ⟨Bound.add i.lower j.lower, Bound.add i.upper j.upper⟩

/-- Whether integers from two intervals are equal. -/
def equals (i j : Interval) : Truth :=
  if Bound.lt i.upper j.lower || Bound.lt j.upper i.lower then .false
  else if i.isSingle && i = j then .true
  else .top

/-- Whether integers from the first interval are less than those from the second. -/
def lessThan (i j : Interval) : Truth :=
  if Bound.lt i.upper j.lower then .true
  else if Bound.le j.upper i.lower then .false
  else .top

end Interval

end MirRange
