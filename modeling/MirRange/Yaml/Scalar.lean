import MirRange.Document.Reader
import MirRange.Yaml.Cursor

/-!
# YAML scalars in the text

A scalar may run over several lines: a single line break in it counts as a space, and of several
line breaks in a row the first one is dropped.

* `Yaml.readPlain`: a scalar without quotes.
* `Yaml.readQuoted`: a scalar in single or double quotes.
-/

namespace MirRange.Yaml

/-- The characters that separate and enclose items of flow collections. -/
def flowMarks : List Char :=
  [',', '[', ']', '\x7b', '\x7d']

/-- What the line breaks in a scalar count as, given the first one and the ones after it. -/
def foldBreaks (first : Char) (more : List Char) : List Char :=
  if first ≠ '\n' then first :: more
  else if more.isEmpty then [' ']
  else more

/-! ### Without quotes -/

/-- The first piece of a plain scalar: it ends at a blank, at a colon that ends a key and, in a flow
collection, at a mark of the collection. -/
def plainPiece (inFlow : Bool) : List Char → List Char
  | [] => []
  | c :: cs =>
    let colon := c = ':' && (endsWord cs || inFlow && cs.head?.any flowMarks.contains)
    let mark := inFlow && (c = '?' || flowMarks.contains c)
    if endsWord (c :: cs) || colon || mark then [] else c :: plainPiece inFlow cs

/-- The line breaks that follow one line break, with spaces between them; none if a document marker
starts a line. -/
def plainBreaks : Nat → Cursor → Option (List Char) × Cursor
  | 0, c => (some [], c)
  | fuel + 1, c =>
    if c.atMarker then (none, c)
    else
      let c := c.skipWhile (· = ' ')
      match c.takeBreak? with
      | none => (some [], c)
      | some (b, c) =>
        let (more, c) := plainBreaks fuel c
        (more.map (b :: ·), c)

/-- What stands between two pieces of a scalar. -/
structure Gap where
  /-- What the gap counts as if the scalar goes on; it does not if there is nothing. -/
  text : List Char
  /-- Whether a line ends in the gap. -/
  newline : Bool
  after : Cursor

/-- The gap at a cursor. -/
def plainGap (c : Cursor) : Gap :=
  let spaces := c.rest.takeWhile (· = ' ')
  let c := c.skip spaces.length
  match c.takeBreak? with
  | none => ⟨spaces, false, c⟩
  | some (b, c) =>
    match plainBreaks (c.rest.length + 1) c with
    | (some more, c) => ⟨foldBreaks b more, true, c⟩
    | (none, c) => ⟨[], true, c⟩

/-- The pieces of a plain scalar, joined by what stands between them.  Outside flow collections the
scalar ends before a line that starts left of the column `indent`. -/
def plainPieces (inFlow : Bool) (indent : Int) : Nat → Bool → Cursor → List Char × Bool × Cursor
  | 0, newline, c => ([], newline, c)
  | fuel + 1, newline, c =>
    let piece := plainPiece inFlow c.rest
    if piece.isEmpty then ([], newline, c)
    else
      let gap := plainGap (c.skip piece.length)
      let ends := gap.text.isEmpty || gap.after.rest.head? = some '#'
        || !inFlow && decide ((gap.after.column : Int) < indent)
      if ends then (piece, gap.newline, gap.after)
      else
        let (more, newline, c) := plainPieces inFlow indent fuel gap.newline gap.after
        (if more.isEmpty then piece else piece ++ gap.text ++ more, newline, c)

/-- A plain scalar at a cursor: its text, whether a line ends in or after it, and the cursor after
it. -/
def readPlain (inFlow : Bool) (indent : Int) (c : Cursor) : String × Bool × Cursor :=
  let (text, newline, c) := plainPieces inFlow indent (c.rest.length + 1) false c
  (String.ofList text, newline, c)

/-! ### In quotes -/

/-- The escapes of one letter in double quotes, with what they stand for. -/
def letterEscapes : List (Char × Char) :=
  [('0', '\x00'), ('a', '\x07'), ('b', '\x08'), ('t', '\t'), ('\t', '\t'), ('n', '\n'), ('v', '\x0b'),
    ('f', '\x0c'), ('r', '\r'), ('e', '\x1b'), (' ', ' '), ('"', '"'), ('\\', '\\'), ('/', '/'),
    ('N', '\x85'), ('_', '\xa0'), ('L', '\u2028'), ('P', '\u2029')]

/-- The escapes that are followed by the code of a character, with the number of its digits. -/
def codeEscapes : List (Char × Nat) :=
  [('x', 2), ('u', 4), ('U', 8)]

/-- The number that hexadecimal digits stand for. -/
def hexNumber? (digits : List Char) : Option Nat :=
  digits.foldlM (fun n c => (Document.hexValue? c).map (16 * n + ·)) 0

/-- The line breaks in quotes after a first one, with blanks between them. -/
def quotedBreaks : Nat → Cursor → Except Fault (List Char × Cursor)
  | 0, c => .ok ([], c)
  | fuel + 1, c =>
    if c.atMarker then .error .markerInQuote
    else
      let c := c.skipWhile fun x => x = ' ' || x = '\t'
      match c.takeBreak? with
      | none => .ok ([], c)
      | some (b, c) => do
        let (more, c) ← quotedBreaks fuel c
        return (b :: more, c)

/-- The escape after a backslash. -/
def readLetter (c : Cursor) : Except Fault (List Char × Cursor) :=
  match c.rest with
  | [] => .error .unknownEscape
  | x :: xs =>
    match letterEscapes.lookup x, codeEscapes.lookup x with
    | some y, _ => .ok ([y], c.step)
    | none, some n =>
      let digits := xs.take n
      match hexNumber? digits with
      | some code =>
        if digits.length = n ∧ code < 0x110000 then .ok ([Char.ofNat code], c.skip (n + 1))
        else .error .badHexEscape
      | none => .error .badHexEscape
    | none, none =>
      match c.takeBreak? with
      | some (_, c) => quotedBreaks (c.rest.length + 1) c
      | none => .error .unknownEscape

/-- The rest of a scalar in quotes, and the cursor after its closing quote. -/
def quotedPieces (quote : Char) : Nat → Cursor → Except Fault (List Char × Cursor)
  | 0, _ => .error .unclosedQuote
  | fuel + 1, c =>
    match c.rest with
    | [] => .error .unclosedQuote
    | x :: xs =>
      if x = quote then
        if quote ≠ '"' ∧ xs.head? = some quote then do
          let (more, c) ← quotedPieces quote fuel (c.skip 2)
          return (quote :: more, c)
        else .ok ([], c.step)
      else if x = '\\' ∧ quote = '"' then do
        let (text, c) ← readLetter c.step
        let (more, c) ← quotedPieces quote fuel c
        return (text ++ more, c)
      else if endsWord (x :: xs) then do
        let blanks := (x :: xs).takeWhile fun y => y = ' ' || y = '\t'
        let c := c.skip blanks.length
        match c.takeBreak? with
        | some (b, c) =>
          let (breaks, c) ← quotedBreaks (c.rest.length + 1) c
          let (more, c) ← quotedPieces quote fuel c
          return (foldBreaks b breaks ++ more, c)
        | none =>
          let (more, c) ← quotedPieces quote fuel c
          return (blanks ++ more, c)
      else do
        let (more, c) ← quotedPieces quote fuel c.step
        return (x :: more, c)

/-- A scalar in quotes, at the cursor before its opening quote. -/
def readQuoted (quote : Char) (c : Cursor) : Except Fault (String × Cursor) := do
  let (text, c) ← quotedPieces quote (c.rest.length + 1) c.step
  return (String.ofList text, c)

end MirRange.Yaml
