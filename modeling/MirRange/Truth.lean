/-!
# Truth values

The four-point domain of truth values: both possible, one of the two, or none.

* `Truth`: the points; `true` and `false` are incomparable, `top` is above and `bot` below both.
* `Truth.leq`, `Truth.join`, `Truth.widen`: order, least upper bound, widening.
* `Truth.equals`: equality as an operation on truth values, not on points.
-/

namespace MirRange

/-- What is known of a truth value: `top` both are possible, `bot` neither is. -/
inductive Truth where
  | top
  | true
  | false
  | bot
deriving Repr, DecidableEq

namespace Truth

/-- The name of a point. -/
def text : Truth → String
  | top => "top"
  | true => "true"
  | false => "false"
  | bot => "bot"

/-- All points. -/
def all : List Truth :=
  [top, true, false, bot]

/-- The point with a given name. -/
def ofText? (s : String) : Option Truth :=
  all.find? fun t => t.text == s

/-- The point of a known truth value. -/
def ofBool (b : Bool) : Truth :=
  if b then true else false

/-- The order: `bot` is least and `top` greatest. -/
def leq (a b : Truth) : Bool :=
  a = b || a = bot || b = top

/-- The least upper bound. -/
def join (a b : Truth) : Truth :=
  if leq b a then a else if leq a b then b else top

/-- Widening: as there are no long chains, it is the least upper bound. -/
def widen (a b : Truth) : Truth :=
  if a = top ∨ b = top then top
  else if a = bot then b
  else if b = bot then a
  else if a = b then a
  else top

/-- Whether two truth values are equal: unknown as soon as one of them is, otherwise impossible as
soon as one of them is. -/
def equals (a b : Truth) : Truth :=
  if a = top ∨ b = top then top
  else if a = bot ∨ b = bot then bot
  else ofBool (a = b)

end Truth

end MirRange
