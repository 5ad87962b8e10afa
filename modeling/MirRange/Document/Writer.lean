import MirRange.Document
import MirRange.Numeral.Decimal
import MirRange.Text.Quoted

/-!
# Documents as JSON text

Writing uses ASCII only: other characters are given by their UTF-16 code units.  With an indent
every item stands on a line of its own, without one the whole document is one line.

* `Document.toText`: the text of a document, on one line or indented.
-/

namespace MirRange

/-- How JSON text spells the floats that are not finite. -/
def jsonFloats : Numeral.FloatNames where
  nan := "NaN"
  infinity := "Infinity"

namespace Document

/-- One UTF-16 code unit in escaped form. -/
def escapeUnit (n : Nat) : List Char :=
  '\\' :: 'u' :: Text.hex 4 n

/-- One character of a text: printable ASCII stands for itself, a few controls have a letter, and
everything else is written by its code units. -/
def escapeChar (c : Char) : List Char :=
  if c = '"' ∨ c = '\\' then ['\\', c]
  else if c = '\n' then ['\\', 'n']
  else if c = '\r' then ['\\', 'r']
  else if c = '\t' then ['\\', 't']
  else if c.toNat = 0x0c then ['\\', 'f']
  else if c.toNat = 0x08 then ['\\', 'b']
  else if 0x20 ≤ c.toNat ∧ c.toNat < 0x7f then [c]
  else if c.toNat < 0x10000 then escapeUnit c.toNat
  else
    let n := c.toNat - 0x10000
    escapeUnit (0xd800 + n / 0x400) ++ escapeUnit (0xdc00 + n % 0x400)

/-- A text between double quotes. -/
def writeText (s : String) : List Char :=
  '"' :: s.toList.flatMap escapeChar ++ ['"']

/-- How items are laid out: on one line, or one a line with an indent of so many blanks for each
level. -/
inductive Layout where
  | line
  | indented (width : Nat)

/-- The layout for an indent; a negative one counts as zero. -/
def Layout.ofIndent : Option Int → Layout
  | none => .line
  | some n => .indented n.toNat

/-- What stands before the first item of a collection at a nesting level. -/
def Layout.opening : Layout → Nat → List Char
  | .line, _ => []
  | .indented w, level => '\n' :: List.replicate (w * (level + 1)) ' '

/-- What stands between two items of a collection at a nesting level. -/
def Layout.between : Layout → Nat → List Char
  | .line, _ => [',', ' ']
  | .indented w, level => ',' :: '\n' :: List.replicate (w * (level + 1)) ' '

/-- What stands after the last item of a collection at a nesting level. -/
def Layout.closing : Layout → Nat → List Char
  | .line, _ => []
  | .indented w, level => '\n' :: List.replicate (w * level) ' '

/-- Characters that open and close objects. -/
def objectOpen : Char := '\x7b'

@[inherit_doc objectOpen]
def objectClose : Char := '\x7d'

mutual

/-- The text of a document at a nesting level. -/
def write (layout : Layout) (level : Nat) : Document → List Char
  | .null => ['n', 'u', 'l', 'l']
  | .bool true => ['t', 'r', 'u', 'e']
  | .bool false => ['f', 'a', 'l', 's', 'e']
  | .int n => Numeral.ofInt n
  | .float x => Numeral.ofFloat jsonFloats x
  | .text s => writeText s
  | .list [] => ['[', ']']
  | .list (d :: ds) =>
    '[' :: layout.opening level ++ write layout (level + 1) d ++ writeItems layout level ds
      ++ layout.closing level ++ [']']
  | .object [] => [objectOpen, objectClose]
  | .object ((k, d) :: ms) =>
    objectOpen :: layout.opening level ++ writeText k ++ ':' :: ' ' :: write layout (level + 1) d
      ++ writeMembers layout level ms ++ layout.closing level ++ [objectClose]

/-- The items of a list after its first. -/
def writeItems (layout : Layout) (level : Nat) : List Document → List Char
  | [] => []
  | d :: ds => layout.between level ++ write layout (level + 1) d ++ writeItems layout level ds

/-- The members of an object after its first. -/
def writeMembers (layout : Layout) (level : Nat) : List (String × Document) → List Char
  | [] => []
  | (k, d) :: ms =>
    layout.between level ++ writeText k ++ ':' :: ' ' :: write layout (level + 1) d
      ++ writeMembers layout level ms

end

/-- The text of a document; without an indent it is one line. -/
def toText (d : Document) (indent : Option Int) : String :=
  String.ofList (write (Layout.ofIndent indent) 0 d)

end Document

end MirRange
