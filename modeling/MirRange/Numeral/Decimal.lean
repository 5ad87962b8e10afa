import MirRange.Numeral.Binary64
import MirRange.Numeral.Shortest

/-!
# Decimal text of numbers

Floats are written with their shortest digits, positionally for exponents from -4 to 15 and with a
power of ten otherwise; reading rounds to the nearest double.

* `Numeral.ofNat`, `Numeral.ofInt`: digits of an integer.
* `Numeral.ofFloat`: text of a float; `FloatNames` spells the values that are not finite.
* `Numeral.toFloat`: the double nearest to a decimal.
-/

namespace MirRange.Numeral

/-- The decimal digits of a natural number. -/
def ofNat (n : Nat) : List Char :=
  Nat.toDigits 10 n

/-- The decimal digits of an integer, after a minus sign if it is negative. -/
def ofInt : Int → List Char
  | .ofNat n => ofNat n
  | .negSucc n => '-' :: ofNat (n + 1)

/-- Fill with zeros on the left up to a width. -/
def padLeft (width : Nat) (digits : List Char) : List Char :=
  List.replicate (width - digits.length) '0' ++ digits

/-- The names of the floats that are not finite. -/
structure FloatNames where
  nan : String
  infinity : String

/-- An exponent with its sign and at least two digits. -/
def exponentText (e : Int) : List Char :=
  (if e < 0 then '-' else '+') :: padLeft 2 (ofNat e.natAbs)

/-- A positive decimal, positionally or with a power of ten, as its leading exponent asks. -/
def ofDecimal (d : Decimal) : List Char :=
  let digits := ofNat d.digits
  let point : Int := digits.length + d.exponent
  if point ≤ -4 ∨ point > 16 then
    let mantissa :=
      match digits with
      | first :: second :: rest => first :: '.' :: second :: rest
      | short => short
    mantissa ++ 'e' :: exponentText (point - 1)
  else if point ≤ 0 then
    '0' :: '.' :: List.replicate (-point).toNat '0' ++ digits
  else if d.exponent ≥ 0 then
    digits ++ List.replicate d.exponent.toNat '0' ++ ['.', '0']
  else
    digits.take point.toNat ++ '.' :: digits.drop point.toNat

/-- The text of a float. -/
def ofFloat (names : FloatNames) (x : Float) : List Char :=
  let signed (negative : Bool) (body : List Char) := if negative then '-' :: body else body
  match Binary64.parts x with
  | .nan => names.nan.toList
  | .infinite negative => signed negative names.infinity.toList
  | .finite negative m q =>
    signed negative (if m = 0 then ['0', '.', '0'] else ofDecimal (Decimal.shortest m q))

/-- The value of a digit from `0` to `9`. -/
def digitValue (c : Char) : Nat :=
  c.toNat - '0'.toNat

/-- The number that a run of decimal digits stands for. -/
def toNat (digits : List Char) : Nat :=
  digits.foldl (fun n c => 10 * n + digitValue c) 0

/-- The double nearest to `mantissa * 10 ^ exponent`.  Beyond the range of doubles the result is
infinite or zero, and the power of ten is not computed. -/
def toFloat (negative : Bool) (mantissa : Nat) (exponent : Int) : Float :=
  let top : Int := (ofNat mantissa).length + exponent
  let size :=
    if mantissa = 0 ∨ top < -330 then 0.0
    else if top > 330 then 1.0 / 0.0
    else Float.ofScientific mantissa (exponent < 0) exponent.natAbs
  if negative then -size else size

end MirRange.Numeral
