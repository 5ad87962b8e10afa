import MirRange.Document
import MirRange.Numeral.Decimal
import MirRange.Text.Quoted

/-!
# Documents inside messages

The form in which messages quote a document: `None`, `True` and `False`, quoted text, lists in
square brackets and objects in braces, items divided by a comma and a blank.

* `Document.literal`: the quoted form.
* `Document.display`: the same, except that a bare text stands for itself.
-/

namespace MirRange

/-- How messages spell the floats that are not finite. -/
def literalFloats : Numeral.FloatNames where
  nan := "nan"
  infinity := "inf"

/-- The form of a list in messages. -/
def listLiteral (items : List String) : String :=
  "[" ++ ", ".intercalate items ++ "]"

/-- The form of a keyed collection in messages, from its already written members. -/
def objectLiteral (members : List String) : String :=
  "\x7b" ++ ", ".intercalate members ++ "\x7d"

/-- One member of a keyed collection. -/
def memberLiteral (key value : String) : String :=
  Text.quote key ++ ": " ++ value

namespace Document

mutual

/-- The form of a document inside a message. -/
def literal : Document → String
  | .null => "None"
  | .bool b => if b then "True" else "False"
  | .int n => String.ofList (Numeral.ofInt n)
  | .float x => String.ofList (Numeral.ofFloat literalFloats x)
  | .text s => Text.quote s
  | .list items => listLiteral (literals items)
  | .object ms => objectLiteral (memberLiterals ms)

/-- The forms of the items of a list. -/
def literals : List Document → List String
  | [] => []
  | d :: ds => literal d :: literals ds

/-- The forms of the members of an object. -/
def memberLiterals : List (String × Document) → List String
  | [] => []
  | (k, d) :: ms => memberLiteral k (literal d) :: memberLiterals ms

end

/-- A document as plain text: a text stands for itself. -/
def display : Document → String
  | .text s => s
  | d => literal d

end Document

end MirRange
