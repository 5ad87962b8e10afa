/-!
# Binary floating-point numbers, taken apart

A finite double is a sign and `mantissa * 2 ^ exponent` with natural mantissa.  Everything that is
written or rounded from a float is computed on these parts in exact arithmetic.

* `Binary64.parts`: sign, mantissa and exponent, or the kind of a value that is not finite.
* `Binary64.truncate`: the integer part, toward zero; `Binary64.whole?`: the same for whole numbers.
-/

namespace MirRange

/-- What a double stands for. -/
inductive Binary64 where
  | nan
  | infinite (negative : Bool)
  /-- The number `mantissa * 2 ^ exponent`, negated if `negative`. -/
  | finite (negative : Bool) (mantissa : Nat) (exponent : Int)
deriving DecidableEq

namespace Binary64

/-- Read the parts off the bit pattern: one sign bit, eleven exponent bits, 52 fraction bits.  An
exponent field of zero has no hidden leading bit. -/
def ofBits (bits : Nat) : Binary64 :=
  let negative : Bool := bits / Nat.pow 2 63 % 2 = 1
  let field : Nat := bits / Nat.pow 2 52 % Nat.pow 2 11
  let fraction : Nat := bits % Nat.pow 2 52
  if field = Nat.pow 2 11 - 1 then
    if fraction = 0 then .infinite negative else .nan
  else if field = 0 then .finite negative fraction (-1074)
  else .finite negative (Nat.pow 2 52 + fraction) ((field : Int) - 1075)

/-- The parts of a float. -/
def parts (x : Float) : Binary64 :=
  ofBits x.toBits.toNat

/-- Why a float has no integer part. -/
inductive NoInteger where
  | nan
  | infinite

/-- The integer part, toward zero. -/
def truncate : Binary64 → Except NoInteger Int
  | .nan => .error .nan
  | .infinite _ => .error .infinite
  | .finite negative m e =>
    let size : Nat := if e ≥ 0 then m * Nat.pow 2 e.toNat else m / Nat.pow 2 (-e).toNat
    .ok (if negative then -(size : Int) else size)

/-- The integer that a whole number is. -/
def whole? : Binary64 → Option Int
  | .finite negative m e =>
    if 0 ≤ e ∨ m % Nat.pow 2 (-e).toNat = 0 then (truncate (.finite negative m e)).toOption else none
  | _ => none

end Binary64

end MirRange
