/-!
# Positions in a YAML text

* `Yaml.Fault`: why a text is not understood.
* `Yaml.Cursor`: what is left of a text, with the line and the column reached.
-/

namespace MirRange.Yaml

/-- Why a text is not understood. -/
inductive Fault where
  | badCharacter (c : Char)
  | badStart (c : Char)
  | unclosedQuote
  | unknownEscape
  | badHexEscape
  | markerInQuote
  | noColon
  | itemNotAllowed
  | keyNotAllowed
  | valueNotAllowed
  | unsupported
  | noContent
  | noEntry
  | noBlockEnd
  | noListEnd
  | noMappingEnd
  | reserved (text : String)
  | badKey
  | badMerge
  | severalDocuments
deriving Repr, DecidableEq

/-- The wording of a fault. -/
def Fault.message : Fault → String
  | badCharacter _ => "special characters are not allowed"
  | badStart _ => "found a character that cannot start any token"
  | unclosedQuote => "found unexpected end of stream in a quoted scalar"
  | unknownEscape => "found an unknown escape character"
  | badHexEscape => "expected hexadecimal digits in an escape"
  | markerInQuote => "found unexpected document separator in a quoted scalar"
  | noColon => "could not find expected ':'"
  | itemNotAllowed => "sequence entries are not allowed here"
  | keyNotAllowed => "mapping keys are not allowed here"
  | valueNotAllowed => "mapping values are not allowed here"
  | unsupported => "anchors, aliases, tags, directives and block scalars are not supported"
  | noContent => "expected the node content"
  | noEntry => "expected a key"
  | noBlockEnd => "expected the end of a block"
  | noListEnd => "expected ',' or ']'"
  | noMappingEnd => "expected ',' or a closing brace"
  | reserved text => "could not tell what '" ++ text ++ "' stands for"
  | badKey => "found unhashable key"
  | badMerge => "expected a mapping or list of mappings for merging"
  | severalDocuments => "expected a single document in the stream"

/-- Whether a character ends a line. -/
def isBreak (c : Char) : Bool :=
  c = '\n' || c = '\r' || c = '\x85' || c = '\u2028' || c = '\u2029'

/-- Whether a word cannot go on with the given text: it starts with a blank, a line break or is
empty. -/
def endsWord : List Char → Bool
  | [] => true
  | c :: _ => c = ' ' || c = '\t' || isBreak c

/-- What is left of a text, with the line and the column reached, both counted from zero. -/
structure Cursor where
  line : Nat
  column : Nat
  rest : List Char

namespace Cursor

/-- The cursor before a text. -/
def start (text : List Char) : Cursor :=
  ⟨0, 0, text⟩

/-- The cursor after one more character that ends no line.  A byte order mark has no width. -/
def step (c : Cursor) : Cursor :=
  match c.rest with
  | [] => c
  | x :: xs => ⟨c.line, if x = '\ufeff' then c.column else c.column + 1, xs⟩

/-- The cursor after `n` more characters that end no line. -/
def skip : Nat → Cursor → Cursor
  | 0, c => c
  | n + 1, c => skip n c.step

/-- The cursor after the characters of one kind, which end no line. -/
def skipWhile (kind : Char → Bool) (c : Cursor) : Cursor :=
  c.skip (c.rest.takeWhile kind).length

/-- The line break at a cursor, as it counts in a scalar, and the cursor after it. -/
def takeBreak? (c : Cursor) : Option (Char × Cursor) :=
  let next (x : Char) (rest : List Char) := some (x, (⟨c.line + 1, 0, rest⟩ : Cursor))
  match c.rest with
  | '\r' :: '\n' :: xs => next '\n' xs
  | '\r' :: xs => next '\n' xs
  | '\n' :: xs => next '\n' xs
  | '\x85' :: xs => next '\n' xs
  | '\u2028' :: xs => next '\u2028' xs
  | '\u2029' :: xs => next '\u2029' xs
  | _ => none

/-- Whether the text starts with a word of three equal characters. -/
def startsWithThree (x : Char) : List Char → Bool
  | a :: b :: c :: xs => a = x && b = x && c = x && endsWord xs
  | _ => false

/-- Whether the text left starts with a document marker, `---` or `...`. -/
def atMarker (c : Cursor) : Bool :=
  startsWithThree '-' c.rest || startsWithThree '.' c.rest

end Cursor

end MirRange.Yaml
