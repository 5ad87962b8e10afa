import MirRange.Document.Reader
import MirRange.Numeral.Decimal
import MirRange.Yaml.Cursor
import MirRange.Yaml.Value

/-!
# What plain YAML scalars stand for

A scalar without quotes is a truth value, a number, a timestamp or null if it is written like one,
and a text otherwise.

* `Yaml.truth?`, `Yaml.integer?`, `Yaml.float?`, `Yaml.isNull`: the ways to write them.
* `Yaml.ScalarError`: why a scalar that is written like a number or a time has no value.
* `Yaml.resolve`: the value of a plain scalar.
-/

namespace MirRange.Yaml

/-- Why a scalar that is written like a number or a time has no value. -/
inductive ScalarError where
  /-- A number in a base has underscores only. -/
  | noDigits (base : Nat)
  | calendar (e : CalendarError)
deriving Repr, DecidableEq

/-- The wording of an error. -/
def ScalarError.message : ScalarError → String
  | .noDigits base => "invalid literal for int() with base " ++ toString base ++ ": ''"
  | .calendar e => e.message

/-- Why a text gives no value. -/
inductive Failure where
  /-- The text is not understood. -/
  | fault (f : Fault)
  /-- The text is understood, but one of its scalars has no value. -/
  | scalar (e : ScalarError)
deriving Repr, DecidableEq

/-- The ways to write truth values. -/
def truthWords : List (String × Bool) :=
  [("yes", true), ("Yes", true), ("YES", true), ("no", false), ("No", false), ("NO", false),
    ("true", true), ("True", true), ("TRUE", true), ("false", false), ("False", false),
    ("FALSE", false), ("on", true), ("On", true), ("ON", true), ("off", false), ("Off", false),
    ("OFF", false)]

/-- The truth value that a scalar is written like. -/
def truth? (s : String) : Option Bool :=
  truthWords.lookup s

/-- Whether a scalar is written like null. -/
def isNull (s : String) : Bool :=
  ["", "~", "null", "Null", "NULL"].contains s

/-! ### Numbers -/

/-- Whether a number starts with a minus sign, and its text without the sign. -/
def splitSign : List Char → Bool × List Char
  | '-' :: cs => (true, cs)
  | '+' :: cs => (false, cs)
  | cs => (false, cs)

/-- The number that digits of a base stand for; underscores may stand among them. -/
def digits? (base : Nat) (cs : List Char) : Option Nat :=
  match cs.filter (· ≠ '_') with
  | [] => none
  | ds => ds.foldlM
    (fun n c => (Document.hexValue? c).bind fun d => if d < base then some (base * n + d) else none) 0

/-- The pieces of a text between colons. -/
def splitColons : List Char → List (List Char)
  | [] => [[]]
  | ':' :: cs => [] :: splitColons cs
  | c :: cs =>
    match splitColons cs with
    | piece :: pieces => (c :: piece) :: pieces
    | [] => [[c]]

/-- A number of sixtieths: one digit, or two of which the first is at most 5. -/
def sixtieth? : List Char → Option Nat
  | [a] => digits? 10 [a]
  | [a, b] => if '0' ≤ a ∧ a ≤ '5' ∧ b ≠ '_' then digits? 10 [a, b] else none
  | _ => none

/-- The natural number that a text is written like: binary, octal, decimal, hexadecimal, or in
sixtieths. -/
def natural? : List Char → Option Nat
  | ['0'] => some 0
  | '0' :: 'b' :: cs => digits? 2 cs
  | '0' :: 'x' :: cs => digits? 16 cs
  | '0' :: cs => digits? 8 ('0' :: cs)
  | '_' :: _ => none
  | cs =>
    match splitColons cs with
    | first :: pieces => do
      let whole ← digits? 10 first
      let parts ← pieces.mapM sixtieth?
      return parts.foldl (60 * · + ·) whole
    | [] => none

/-- The integer that a scalar is written like. -/
def integer? (s : String) : Option Int :=
  let (negative, cs) := splitSign s.toList
  (natural? cs).map fun n => if negative then -(n : Int) else n

/-- The base of a number that has underscores only. -/
def emptyBase? (s : String) : Option Nat :=
  let blank (cs : List Char) : Bool := !cs.isEmpty && cs.all (· = '_')
  match (splitSign s.toList).2 with
  | '0' :: 'b' :: cs => if blank cs then some 2 else none
  | '0' :: 'x' :: cs => if blank cs then some 16 else none
  | _ => none

/-- An exponent with its sign, or none at all. -/
def exponent? : List Char → Option Int
  | [] => some 0
  | e :: sign :: cs =>
    if (e = 'e' ∨ e = 'E') ∧ (sign = '-' ∨ sign = '+') ∧ cs.all Char.isDigit ∧ !cs.isEmpty then
      some (if sign = '-' then -(Numeral.toNat cs : Int) else Numeral.toNat cs)
    else none
  | _ => none

/-- Whether a character may stand among the digits of a float. -/
def isFloatDigit (c : Char) : Bool :=
  c.isDigit || c = '_'

/-- A float with a point: digits, the point, more digits and an exponent. -/
def pointed? (negative : Bool) (cs : List Char) : Option Float :=
  let whole := cs.takeWhile isFloatDigit
  match cs.dropWhile isFloatDigit with
  | '.' :: rest => do
    let part := (rest.takeWhile isFloatDigit).filter (· ≠ '_')
    let e ← exponent? (rest.dropWhile isFloatDigit)
    let digits := whole.filter (· ≠ '_') ++ part
    return Numeral.toFloat negative (Numeral.toNat digits) (e - part.length)
  | _ => none

/-- A float in sixtieths, of which the last piece has a point. -/
def sixtiethFloat? (negative : Bool) (cs : List Char) : Option Float :=
  match (splitColons cs).reverse with
  | last :: middle :: rest => do
    let whole := last.takeWhile Char.isDigit
    let part ← match last.dropWhile Char.isDigit with
      | '.' :: part => if part.all isFloatDigit then some (part.filter (· ≠ '_')) else none
      | _ => none
    let _ ← sixtieth? whole
    let first ← ((middle :: rest).getLast?).bind (digits? 10)
    let others ← (middle :: rest).dropLast.mapM sixtieth?
    let unit := Numeral.toFloat false (Numeral.toNat (whole ++ part)) (-(part.length : Int))
    let float (n : Nat) := Numeral.toFloat false n 0
    let size := ((others ++ [first]).foldl
      (fun (sum, base) n => (sum + float n * float base, 60 * base)) (unit, 60)).1
    return if negative then -size else size
  | _ => none

/-- The float that a scalar is written like. -/
def float? (s : String) : Option Float :=
  let (negative, cs) := splitSign s.toList
  if [".nan", ".NaN", ".NAN"].contains s then some (0.0 / 0.0)
  else if [".inf", ".Inf", ".INF"].contains (String.ofList cs) then
    some (if negative then -1.0 / 0.0 else 1.0 / 0.0)
  else
    match s.toList, cs with
    | '.' :: c :: _, _ => if c.isDigit then pointed? false s.toList else none
    | _, c :: _ =>
      if c.isDigit then (pointed? negative cs).orElse fun _ => sixtiethFloat? negative cs else none
    | _, _ => none

/-! ### Values -/

/-- The value of a plain scalar; the words `=` and `<<` stand for nothing. -/
def resolve (s : String) : Except Failure Scalar :=
  if s = "=" ∨ s = "<<" then .error (.fault (.reserved s))
  else
    match truth? s, float? s, integer? s, emptyBase? s, Timestamp.ofText? s with
    | some b, _, _, _, _ => .ok (.bool b)
    | _, some x, _, _, _ => .ok (.float x)
    | _, _, some n, _, _ => .ok (.int n)
    | _, _, _, some base, _ => .error (.scalar (.noDigits base))
    | _, _, _, _, some (.ok t) => .ok (.timestamp t)
    | _, _, _, _, some (.error e) => .error (.scalar (.calendar e))
    | _, _, _, _, none => .ok (if isNull s then .null else .text s)

end MirRange.Yaml
