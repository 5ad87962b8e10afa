import MirRange.Ty

/-!
# Questions to a solver

Whether an addition at an integer type can overflow is put to a solver for bit vectors: are there
two vectors of the width of the type, each between the encoded ends of a range, whose addition
overflows or underflows?  The solver may answer with two such vectors, or that there are none, or
not at all.

* `BitAdd`: what a solver tells of the addition of two vectors; `BitAdd.signs` tells it from signs
  and carry.
* `Overflow.query`: what is asked of two vectors; `Overflow.number`: a vector read as a number.
* `Question`: a question that can be asked; `Answer`: what may be answered.
* `Solver`: what answers questions; `Solver.ends` looks at the ends of the ranges and answers all.
-/

namespace MirRange

/-- A range that is not empty and lies in another one. -/
def IntRange.IsIn (r within : IntRange) : Prop :=
  within.min ≤ r.min ∧ r.min ≤ r.max ∧ r.max ≤ within.max

/-- The width of an integer type. -/
def Ty.width? : Ty → Option Nat
  | .int bits => some bits
  | .uint bits => some bits
  | _ => none

/-- What a solver tells of the addition of two vectors. -/
structure BitAdd (w : Nat) where
  noOverflow : (signed : Bool) → BitVec w → BitVec w → Bool
  noUnderflow : BitVec w → BitVec w → Bool

/-- The predicates in terms of bits.  Two vectors of one sign have a sum of that sign, and there is
no carry out of an unsigned addition. -/
def BitAdd.signs (w : Nat) : BitAdd w where
  noOverflow
    | true, x, y => !((0#w).slt x && (0#w).slt y) || (0#w).slt (x + y)
    | false, x, y => !(x.setWidth (w + 1) + y.setWidth (w + 1)).msb
  noUnderflow x y := !(x.slt 0#w && y.slt 0#w) || (x + y).slt 0#w

namespace Overflow

variable {w : Nat}

/-- A vector read as a number of a type. -/
def number (ty : Ty) (x : BitVec w) : Int :=
  if ty.isSigned then x.toInt else x.toNat

/-- Whether a vector is between the encoded ends of a range, in the order of the type. -/
def between (ty : Ty) (r : IntRange) (x : BitVec w) : Bool :=
  if ty.isSigned then (BitVec.ofInt w r.min).sle x && x.sle (BitVec.ofInt w r.max)
  else (BitVec.ofInt w r.min).ule x && x.ule (BitVec.ofInt w r.max)

/-- Whether a solver says that the addition of two vectors leaves the type. -/
def leaves (t : BitAdd w) (ty : Ty) (x y : BitVec w) : Bool :=
  if ty.isSigned then !t.noOverflow true x y || !t.noUnderflow x y
  else !t.noOverflow false x y

/-- What is asked of two vectors: each is between the ends of a range, and their addition leaves the
type. -/
def query (t : BitAdd w) (ty : Ty) (left right : IntRange) (x y : BitVec w) : Bool :=
  between ty left x && between ty right y && leaves t ty x y

end Overflow

/-- A question to a solver: do vectors from two ranges have a sum that leaves an integer type?
There are no vectors without bits, and the ranges lie in that of the type. -/
structure Question where
  ty : Ty
  width : Nat
  width_eq : ty.width? = some width
  pos : 0 < width
  within : IntRange
  within_eq : ty.range? = some within
  left : IntRange
  right : IntRange
  left_isIn : left.IsIn within
  right_isIn : right.IsIn within

/-- What a solver answers. -/
inductive Answer (w : Nat) where
  /-- Two vectors for which the answer is yes. -/
  | sat (x y : BitVec w)
  /-- There are no such vectors. -/
  | unsat
  /-- The time was not enough. -/
  | unknown

/-- What answers questions, in a time in milliseconds. -/
structure Solver where
  predicates : (w : Nat) → BitAdd w
  answer : (timeoutMs : Int) → (q : Question) → Answer q.width

/-- The solver that tries the greatest vectors of the two ranges, and then the least ones. -/
def Solver.ends : Solver where
  predicates := BitAdd.signs
  answer _ q :=
    if q.within.max < q.left.max + q.right.max then
      .sat (.ofInt q.width q.left.max) (.ofInt q.width q.right.max)
    else if q.left.min + q.right.min < q.within.min then
      .sat (.ofInt q.width q.left.min) (.ofInt q.width q.right.min)
    else .unsat

end MirRange
