import MirRange.Numeral.Decimal

/-!
# YAML timestamps

A plain scalar that is written like a date, or like a date with a time of day, stands for that
point in time.  The time may have a fraction of a second, of which six digits count, and an offset
from universal time.

* `Yaml.Timestamp`: dates and moments.
* `Yaml.Timestamp.ofText?`: the timestamp that a scalar is written like; `Yaml.CalendarError`: why
  there is no such time.
* `Yaml.Timestamp.display`, `Yaml.Timestamp.literal`: its text, alone and inside a message.
-/

namespace MirRange.Yaml

/-- A day of the calendar. -/
structure Date where
  year : Nat
  month : Nat
  day : Nat
deriving Repr, DecidableEq

/-- A time of day. -/
structure Clock where
  hour : Nat
  minute : Nat
  second : Nat
  microsecond : Nat
deriving Repr, DecidableEq

/-- A point in time. -/
inductive Timestamp where
  | date (d : Date)
  /-- A time on a day, with its offset from universal time in minutes if that is known. -/
  | moment (d : Date) (c : Clock) (offset : Option Int)
deriving Repr, DecidableEq

/-! ### The calendar -/

/-- Whether a year has a day more. -/
def isLeapYear (year : Nat) : Bool :=
  year % 4 = 0 && (year % 100 ≠ 0 || year % 400 = 0)

/-- The number of days in a month. -/
def monthDays (year month : Nat) : Nat :=
  if month = 2 then if isLeapYear year then 29 else 28
  else if month = 4 ∨ month = 6 ∨ month = 9 ∨ month = 11 then 30
  else 31

/-- The number of a day, counted from the first day of the first year, which has the number 1. -/
def Date.number (d : Date) : Nat :=
  let years := d.year - 1
  let months := (List.range (d.month - 1)).foldl (fun days m => days + monthDays d.year (m + 1)) 0
  365 * years + years / 4 - years / 100 + years / 400 + months + d.day

/-- The minutes of a day. -/
def minutesPerDay : Nat :=
  1440

/-- The microseconds of universal time at a moment with a known offset. -/
def instant (d : Date) (c : Clock) (offset : Int) : Int :=
  let minutes : Int := minutesPerDay * d.number + 60 * c.hour + c.minute - offset
  1000000 * (60 * minutes + c.second) + c.microsecond

/-! ### Texts -/

/-- A number with at least a given number of digits. -/
def padded (width n : Nat) : String :=
  String.ofList (Numeral.padLeft width (Numeral.ofNat n))

/-- The text of a day. -/
def Date.display (d : Date) : String :=
  padded 4 d.year ++ "-" ++ padded 2 d.month ++ "-" ++ padded 2 d.day

/-- The text of a time of day; a whole number of seconds has no fraction. -/
def Clock.display (c : Clock) : String :=
  let whole := padded 2 c.hour ++ ":" ++ padded 2 c.minute ++ ":" ++ padded 2 c.second
  if c.microsecond = 0 then whole else whole ++ "." ++ padded 6 c.microsecond

/-- The text of an offset: hours and minutes after a sign. -/
def offsetDisplay (offset : Int) : String :=
  let minutes := offset.natAbs
  (if offset < 0 then "-" else "+") ++ padded 2 (minutes / 60) ++ ":" ++ padded 2 (minutes % 60)

/-- A number of minutes inside a message, as days and seconds.  The days are rounded down. -/
def durationLiteral (minutes : Int) : String :=
  let days := Int.fdiv minutes minutesPerDay
  let seconds := 60 * Int.fmod minutes minutesPerDay
  let part (name : String) (n : Int) :=
    if n = 0 then [] else [name ++ "=" ++ String.ofList (Numeral.ofInt n)]
  let parts := part "days" days ++ part "seconds" seconds
  "datetime.timedelta(" ++ (if parts.isEmpty then "0" else ", ".intercalate parts) ++ ")"

/-- An offset inside a message. -/
def offsetLiteral (offset : Int) : String :=
  if offset = 0 then "datetime.timezone.utc"
  else "datetime.timezone(" ++ durationLiteral offset ++ ")"

/-- Numbers inside a message, divided by commas. -/
def numbersLiteral (ns : List Nat) : String :=
  ", ".intercalate (ns.map fun n => String.ofList (Numeral.ofNat n))

/-- The numbers of a time of day; zero seconds are left out at the end. -/
def Clock.numbers (c : Clock) : List Nat :=
  [c.hour, c.minute] ++
    (if c.microsecond ≠ 0 then [c.second, c.microsecond]
    else if c.second ≠ 0 then [c.second]
    else [])

namespace Timestamp

/-- The text of a timestamp. -/
def display : Timestamp → String
  | .date d => d.display
  | .moment d c offset =>
    d.display ++ " " ++ c.display ++ (offset.map offsetDisplay).getD ""

/-- A timestamp inside a message. -/
def literal : Timestamp → String
  | .date d => "datetime.date(" ++ numbersLiteral [d.year, d.month, d.day] ++ ")"
  | .moment d c offset =>
    "datetime.datetime(" ++ numbersLiteral ([d.year, d.month, d.day] ++ c.numbers)
      ++ (offset.map fun o => ", tzinfo=" ++ offsetLiteral o).getD "" ++ ")"

end Timestamp

/-! ### Times that do not exist -/

/-- Why there is no such time. -/
inductive CalendarError where
  | noYear (year : Nat)
  | noMonth
  | noDay
  | noHour
  | noMinute
  | noSecond
  | noOffset (minutes : Int)
deriving Repr, DecidableEq

/-- The wording of an error. -/
def CalendarError.message : CalendarError → String
  | noYear year => "year " ++ String.ofList (Numeral.ofNat year) ++ " is out of range"
  | noMonth => "month must be in 1..12"
  | noDay => "day is out of range for month"
  | noHour => "hour must be in 0..23"
  | noMinute => "minute must be in 0..59"
  | noSecond => "second must be in 0..59"
  | noOffset minutes =>
    "offset must be a timedelta strictly between -timedelta(hours=24) and timedelta(hours=24), not "
      ++ durationLiteral minutes ++ "."

/-- A day, if the calendar has it. -/
def Date.check (d : Date) : Except CalendarError Date :=
  if d.year = 0 then .error (.noYear d.year)
  else if d.month = 0 ∨ 12 < d.month then .error .noMonth
  else if d.day = 0 ∨ monthDays d.year d.month < d.day then .error .noDay
  else .ok d

/-- A time of day, if the clock shows it. -/
def Clock.check (c : Clock) : Except CalendarError Clock :=
  if 23 < c.hour then .error .noHour
  else if 59 < c.minute then .error .noMinute
  else if 59 < c.second then .error .noSecond
  else .ok c

/-- An offset, if it is less than a day. -/
def checkOffset : Option Int → Except CalendarError (Option Int)
  | some minutes =>
    if minutes.natAbs < minutesPerDay then .ok (some minutes) else .error (.noOffset minutes)
  | none => .ok none

/-- A timestamp, if there is such a time. -/
def Timestamp.check : Timestamp → Except CalendarError Timestamp
  | .date d => do return .date (← d.check)
  | .moment d c offset => do
    let offset ← checkOffset offset
    return .moment (← d.check) (← c.check) offset

/-! ### Reading -/

/-- A number of exactly so many digits at the start of a text, and the text after it. -/
def fixedNumber? (width : Nat) (cs : List Char) : Option (Nat × List Char) :=
  let ds := cs.take width
  if ds.length = width ∧ ds.all Char.isDigit then some (Numeral.toNat ds, cs.drop width) else none

/-- A number of two digits, or else of one digit, at the start of a text, and the text after it. -/
def shortNumber? (cs : List Char) : Option (Nat × List Char) :=
  (fixedNumber? 2 cs).orElse fun _ => fixedNumber? 1 cs

/-- The text after a character. -/
def after? (c : Char) : List Char → Option (List Char)
  | d :: cs => if d = c then some cs else none
  | [] => none

/-- A day at the start of a text, and the text after it. -/
def Date.ofText? (number? : List Char → Option (Nat × List Char)) (cs : List Char) :
    Option (Date × List Char) := do
  let (year, cs) ← fixedNumber? 4 cs
  let (month, cs) ← number? (← after? '-' cs)
  let (day, cs) ← number? (← after? '-' cs)
  return (⟨year, month, day⟩, cs)

/-- The microseconds that the digits of a fraction stand for; only six digits count. -/
def microseconds (ds : List Char) : Nat :=
  Numeral.toNat ((ds ++ List.replicate 6 '0').take 6)

/-- A time of day at the start of a text, and the text after it. -/
def Clock.ofText? (cs : List Char) : Option (Clock × List Char) := do
  let (hour, cs) ← shortNumber? cs
  let (minute, cs) ← fixedNumber? 2 (← after? ':' cs)
  let (second, cs) ← fixedNumber? 2 (← after? ':' cs)
  match cs with
  | '.' :: cs =>
    let c : Clock := ⟨hour, minute, second, microseconds (cs.takeWhile Char.isDigit)⟩
    return (c, cs.dropWhile Char.isDigit)
  | cs => return (⟨hour, minute, second, 0⟩, cs)

/-- Whether a character divides the parts of a timestamp. -/
def isDivider (c : Char) : Bool :=
  c = ' ' || c = '\t'

/-- The minutes of an offset after its sign. -/
def offsetMinutes? (cs : List Char) : Option Nat := do
  let (hours, cs) ← shortNumber? cs
  match cs with
  | [] => return 60 * hours
  | cs =>
    let (minutes, rest) ← fixedNumber? 2 (← after? ':' cs)
    if rest.isEmpty then return 60 * hours + minutes else none

/-- The offset at the end of a text, which may be left out. -/
def offset? (cs : List Char) : Option (Option Int) :=
  if cs.isEmpty then some none
  else
    match cs.dropWhile isDivider with
    | ['Z'] => some (some 0)
    | '+' :: cs => (offsetMinutes? cs).map fun m => some (m : Int)
    | '-' :: cs => (offsetMinutes? cs).map fun m => some (-(m : Int))
    | _ => none

/-- The text of the time of day in a timestamp: a letter or blanks stand before it. -/
def timePart? : List Char → Option (List Char)
  | c :: cs =>
    if c = 'T' ∨ c = 't' then some cs
    else if isDivider c then some (cs.dropWhile isDivider)
    else none
  | [] => none

namespace Timestamp

/-- The date that a text is written like. -/
def dateOfText? (cs : List Char) : Option Timestamp := do
  let (d, rest) ← Date.ofText? (fixedNumber? 2) cs
  if rest.isEmpty then return .date d else none

/-- The moment that a text is written like. -/
def momentOfText? (cs : List Char) : Option Timestamp := do
  let (d, cs) ← Date.ofText? shortNumber? cs
  let (c, cs) ← Clock.ofText? (← timePart? cs)
  return .moment d c (← offset? cs)

/-- The timestamp that a scalar is written like, if there is such a time. -/
def ofText? (s : String) : Option (Except CalendarError Timestamp) :=
  ((dateOfText? s.toList).orElse fun _ => momentOfText? s.toList).map check

end Timestamp

end MirRange.Yaml
