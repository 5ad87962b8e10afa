import MirRange.Text.Printable

/-!
# Quoted text

How a text appears inside a message: between single quotes, or between double quotes when it holds
a single quote and no double one, with everything unprintable escaped.

* `Text.hex`: a number in hexadecimal, filled up to a width.
* `Text.quote`: the quoted form of a text; `Text.quoteUpTo`: its beginning.
-/

namespace MirRange.Text

/-- A number in lower-case hexadecimal, with zeros on the left up to a width. -/
def hex (width n : Nat) : List Char :=
  let digits := Nat.toDigits 16 n
  List.replicate (width - digits.length) '0' ++ digits

/-- An unprintable character by its number, in the shortest of three widths. -/
def escapeCode (c : Char) : List Char :=
  let n := c.toNat
  if n < 0x100 then '\\' :: 'x' :: hex 2 n
  else if n < 0x10000 then '\\' :: 'u' :: hex 4 n
  else '\\' :: 'U' :: hex 8 n

/-- One character of a quoted text; `mark` is the quote in use. -/
def quoteChar (mark c : Char) : List Char :=
  if c = mark ∨ c = '\\' then ['\\', c]
  else if c = '\n' then ['\\', 'n']
  else if c = '\r' then ['\\', 'r']
  else if c = '\t' then ['\\', 't']
  else if isPrintable c then [c]
  else escapeCode c

/-- The quote that a text is put between. -/
def quoteMark (cs : List Char) : Char :=
  if cs.contains '\'' && !cs.contains '"' then '"' else '\''

/-- The quoted form of a text. -/
def quote (s : String) : String :=
  let cs := s.toList
  let mark := quoteMark cs
  String.ofList (mark :: cs.flatMap (quoteChar mark) ++ [mark])

/-- The quoted form of a text, cut off after a number of characters.  The closing quote and the rest
of an escape are cut off like anything else. -/
def quoteUpTo (limit : Nat) (s : String) : String :=
  String.ofList ((quote s).toList.take limit)

end MirRange.Text
