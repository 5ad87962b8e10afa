import MirRange.Numeral.Binary64
import MirRange.Settings
import MirRange.Text.Blank
import MirRange.Text.Digit
import MirRange.Text.Quoted

/-!
# Entries of settings

Settings are read leniently: text settings take any value as it displays, flags take any value for
what it counts as, and unknown keys are ignored.  Only a number that cannot be made out is an error.

* `IntegerError`: why a value is no integer; `integerOfText?`, `integerOfFloat`: the integers that
  texts and floats stand for.
* `Entry`: what a value counts as in a setting.
* `Settings.ofEntries`: the settings of the values under some keys.
-/

namespace MirRange

/-- Why a value cannot be taken as an integer. -/
inductive IntegerError where
  | infinite
  | notANumber
  | badText (s : String)
  | wrongType (name : String)
deriving Repr, DecidableEq

/-- The number of characters up to which an error quotes a text. -/
def IntegerError.quoteLimit : Nat :=
  200

/-- The wording of an error. -/
def IntegerError.message : IntegerError → String
  | .infinite => "cannot convert float infinity to integer"
  | .notANumber => "cannot convert float NaN to integer"
  | .badText s => "invalid literal for int() with base 10: " ++ Text.quoteUpTo quoteLimit s
  | .wrongType name =>
    "int() argument must be a string, a bytes-like object or a real number, not '" ++ name ++ "'"

/-- The value of the digits after the first ones, which are worth `acc`: an underscore may stand
between two digits. -/
def moreDigits (acc : Nat) : List Char → Option Nat
  | [] => some acc
  | '_' :: c :: cs =>
    match Text.digit? c with
    | some d => moreDigits (10 * acc + d) cs
    | none => none
  | c :: cs =>
    match Text.digit? c with
    | some d => moreDigits (10 * acc + d) cs
    | none => none

/-- The value of a numeral, which starts with a digit. -/
def numeral? : List Char → Option Nat
  | [] => none
  | c :: cs =>
    match Text.digit? c with
    | some d => moreDigits d cs
    | none => none

/-- The integer that a text stands for: blanks around it and one sign are allowed. -/
def integerOfText? (s : String) : Option Int :=
  match Text.strip s.toList with
  | '-' :: cs => (numeral? cs).map fun n => -(n : Int)
  | '+' :: cs => (numeral? cs).map fun n => (n : Int)
  | cs => (numeral? cs).map fun n => (n : Int)

/-- The integer that a float stands for; it is cut toward zero. -/
def integerOfFloat (x : Float) : Except IntegerError Int :=
  match (Binary64.parts x).truncate with
  | .ok n => .ok n
  | .error .infinite => .error .infinite
  | .error .nan => .error .notANumber

/-- The integer that a text stands for, if there is one. -/
def integerOfText (s : String) : Except IntegerError Int :=
  match integerOfText? s with
  | some n => .ok n
  | none => .error (.badText s)

/-- What a value counts as in a setting. -/
structure Entry where
  /-- The value as a text. -/
  text : String
  /-- The items as texts, if the value is a list. -/
  texts : Option (List String)
  /-- Whether the value counts as true. -/
  flag : Bool
  /-- The value as a number. -/
  number : Except IntegerError Int

/-- The settings that have the given values under their keys; what is left out has its default. -/
def Settings.ofEntries (get? : String → Option Entry) : Except IntegerError Settings := do
  let base : Settings := {}
  let text (key default : String) : String :=
    ((get? key).map Entry.text).getD default
  let texts (key : String) (default : List String) : List String :=
    ((get? key).bind Entry.texts).getD default
  let flag (key : String) (default : Bool) : Bool :=
    ((get? key).map Entry.flag).getD default
  let number (key : String) (default : Int) : Except IntegerError Int :=
    ((get? key).map Entry.number).getD (.ok default)
  let solverTimeoutMs ← number "solver_timeout_ms" base.solverTimeoutMs
  let parallelWorkers ← number "parallel_workers" base.parallelWorkers
  return {
    logLevel := text "log_level" base.logLevel
    format := text "format" base.format
    includes := texts "include" base.includes
    excludes := texts "exclude" base.excludes
    checkOverflow := flag "check_overflow" base.checkOverflow
    solverTimeoutMs := solverTimeoutMs
    parallel := flag "parallel" base.parallel
    parallelWorkers := parallelWorkers }

end MirRange
