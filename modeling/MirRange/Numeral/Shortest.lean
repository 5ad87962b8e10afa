/-!
# Shortest decimals

The fewest decimal digits that still read back as a given binary number, and of those the nearest.

A binary number `m * 2 ^ q` owns the interval of reals that round to it: half a gap on either side,
with the ends included exactly when `m` is even.  The gap below is half as wide where `m` is the
least mantissa of its exponent.  For one digit, two digits and so on, the two neighbours of the
number on the grid of that many digits are tried; the first grid with a neighbour inside the
interval gives the answer.

* `Decimal`: digits and a power of ten.
* `Decimal.shortest`: the shortest decimal of `m * 2 ^ q`.
-/

namespace MirRange

/-- The number `digits * 10 ^ exponent`. -/
structure Decimal where
  digits : Nat
  exponent : Int
deriving Repr, DecidableEq

namespace Decimal

/-- A quotient of naturals with a positive denominator. -/
structure Ratio where
  num : Nat
  den : Nat

/-- The ratio `n * 2 ^ q`. -/
def Ratio.ofBinary (n : Nat) (q : Int) : Ratio :=
  if q ≥ 0 then ⟨n * Nat.pow 2 q.toNat, 1⟩ else ⟨n, Nat.pow 2 (-q).toNat⟩

/-- The ratio divided by `10 ^ e`. -/
def Ratio.shift (r : Ratio) (e : Int) : Ratio :=
  if e ≥ 0 then ⟨r.num, r.den * Nat.pow 10 e.toNat⟩ else ⟨r.num * Nat.pow 10 (-e).toNat, r.den⟩

/-- The exponent of the leading digit of a double: every positive double exceeds `10 ^ (-400)`, so
the digits of its multiple by `10 ^ 400` can be counted. -/
def Ratio.leading (r : Ratio) : Int :=
  ((Nat.toDigits 10 (r.num * Nat.pow 10 400 / r.den)).length : Int) - 401

/-- The reals that round to a number, and the number itself, over one denominator. -/
structure Neighbourhood where
  low : Nat
  value : Nat
  high : Nat
  den : Nat
  closed : Bool

/-- The neighbourhood of `m * 2 ^ q`, in quarters of the gap. -/
def neighbourhood (m : Nat) (q : Int) : Neighbourhood :=
  let narrow := m = Nat.pow 2 52 ∧ q > -1074
  let unit := Ratio.ofBinary 1 (q - 2)
  { low := (4 * m - (if narrow then 1 else 2)) * unit.num
    value := 4 * m * unit.num
    high := (4 * m + 2) * unit.num
    den := unit.den
    closed := m % 2 = 0 }

/-- Whether `c * 10 ^ e` rounds to the number. -/
def Neighbourhood.owns (n : Neighbourhood) (c : Nat) (e : Int) : Bool :=
  let scaled := c * n.den * (if e ≥ 0 then Nat.pow 10 e.toNat else 1)
  let unit := if e ≥ 0 then 1 else Nat.pow 10 (-e).toNat
  if n.closed then n.low * unit ≤ scaled && scaled ≤ n.high * unit
  else n.low * unit < scaled && scaled < n.high * unit

/-- The nearest decimal with exponent `e` that rounds to the number, if there is one.  Of two at
the same distance the one with the even digit is taken. -/
def Neighbourhood.nearest? (n : Neighbourhood) (e : Int) : Option Decimal :=
  let r := Ratio.shift ⟨n.value, n.den⟩ e
  let below := r.num / r.den
  let twice := 2 * (r.num % r.den)
  let downFirst := twice < r.den || (twice = r.den && below % 2 = 0)
  let (first, second) := if downFirst then (below, below + 1) else (below + 1, below)
  if n.owns first e then some ⟨first, e⟩
  else if n.owns second e then some ⟨second, e⟩
  else none

/-- The same number without up to `n` zeros at the end of its digits. -/
def trim : Nat → Decimal → Decimal
  | 0, d => d
  | n + 1, d => if d.digits % 10 = 0 then trim n ⟨d.digits / 10, d.exponent + 1⟩ else d

/-- The shortest decimal of `m * 2 ^ q`.  Seventeen digits always suffice, and the next number on a
grid may have one digit more, a zero. -/
def shortest (m : Nat) (q : Int) : Decimal :=
  let n := neighbourhood m q
  let top := Ratio.leading ⟨n.value, n.den⟩
  let found := (List.range 17).findSome? fun k => n.nearest? (top - (k : Nat))
  trim 17 (found.getD ⟨n.value / n.den, 0⟩)

end Decimal

end MirRange
