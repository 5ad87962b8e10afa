import MirRange.Yaml.Scalar

/-!
# YAML tokens

The text is cut into tokens.  Indentation shows in them: a block that starts at a column further
right than the blocks around it gets a token for its start, and each block that a line further left
ends gets a token for its end.

A scalar or a flow collection turns out to be a key only at the colon after it.  So every place
where a key may start is remembered, and the token for the key is put there when the colon comes.

* `Yaml.Token`: the tokens.
* `Yaml.Lexer`: what is remembered between two tokens; `Yaml.Lexer.next`: the next token.
* `Yaml.tokens`: the tokens of a text.
-/

namespace MirRange.Yaml

/-- The tokens of a text. -/
inductive Token where
  | documentStart
  | documentEnd
  | listStart
  | mappingStart
  | blockEnd
  | item
  | key
  | value
  | flowListStart
  | flowListEnd
  | flowMappingStart
  | flowMappingEnd
  | comma
  | plain (text : String)
  | quoted (text : String)
deriving Repr, DecidableEq

/-- A place where a key may have started. -/
structure PossibleKey where
  /-- The number of tokens before it. -/
  before : Nat
  line : Nat
  column : Nat
  /-- How much text was left there. -/
  left : Nat
  /-- Whether it starts a line of the innermost block, which makes it a key for certain. -/
  required : Bool

/-- What is remembered between two tokens. -/
structure Lexer where
  cursor : Cursor
  /-- The tokens so far. -/
  tokens : List Token
  /-- The columns of the open blocks, the innermost first. -/
  indents : List Int
  /-- Whether a key may start here. -/
  keyAllowed : Bool
  /-- Where the latest possible key of each open flow collection started, the innermost first, and
  last that of the block around them. -/
  keys : List (Option PossibleKey)

namespace Lexer

/-- The longest text of a key. -/
def keyLimit : Nat :=
  1024

/-- The lexer before a text; a byte order mark at its start is passed over. -/
def start (text : List Char) : Lexer where
  cursor := .start (match text with
    | '\ufeff' :: rest => rest
    | text => text)
  tokens := []
  indents := []
  keyAllowed := true
  keys := [none]

/-- Whether a flow collection is open. -/
def inFlow (l : Lexer) : Bool :=
  decide (1 < l.keys.length)

/-- The column of the innermost block. -/
def indent (l : Lexer) : Int :=
  l.indents.head?.getD (-1)

/-- The column reached. -/
def column (l : Lexer) : Int :=
  l.cursor.column

/-- Add a token, after which a cursor is reached. -/
def push (l : Lexer) (t : Token) (after : Cursor) (keyAllowed : Bool) : Lexer :=
  { l with cursor := after, tokens := l.tokens ++ [t], keyAllowed := keyAllowed }

/-! ### Blocks -/

/-- End the blocks that start right of a column. -/
def unwind (l : Lexer) (column : Int) : Lexer :=
  if l.inFlow then l
  else
    { l with
      tokens := l.tokens ++ (l.indents.takeWhile (column < ·)).map fun _ => .blockEnd
      indents := l.indents.dropWhile (column < ·) }

/-- Start a block at a column, unless the innermost one starts there or further right.  The token
for the start is put in after the first `before` tokens. -/
def openBlock (l : Lexer) (column : Int) (before : Nat) (t : Token) : Lexer :=
  if l.indent < column then
    { l with tokens := l.tokens.insertIdx before t, indents := column :: l.indents }
  else l

/-! ### Possible keys -/

/-- Whether a possible key is too far back to be a key. -/
def isStale (l : Lexer) (k : PossibleKey) : Bool :=
  k.line ≠ l.cursor.line || decide (keyLimit < k.left - l.cursor.rest.length)

/-- Give up a possible key. -/
def giveUp (k : PossibleKey) : Except Fault (Option PossibleKey) :=
  if k.required then .error .noColon else .ok none

/-- Give up the possible keys that are too far back. -/
def dropStale (l : Lexer) : Except Fault Lexer := do
  let keys ← l.keys.mapM fun
    | some k => if l.isStale k then giveUp k else .ok (some k)
    | none => .ok none
  return { l with keys := keys }

/-- Give up the latest possible key. -/
def forgetKey (l : Lexer) : Except Fault Lexer :=
  match l.keys with
  | some k :: rest => do
    let k ← giveUp k
    return { l with keys := k :: rest }
  | _ => .ok l

/-- Remember that a key may start here. -/
def noteKey (l : Lexer) : Except Fault Lexer :=
  if l.keyAllowed then do
    let l ← l.forgetKey
    let here : PossibleKey := {
      before := l.tokens.length
      line := l.cursor.line
      column := l.cursor.column
      left := l.cursor.rest.length
      required := !l.inFlow && decide (l.indent = l.column) }
    return { l with keys := some here :: l.keys.tail }
  else .ok l

/-! ### Tokens -/

/-- Skip spaces, comments and line breaks. -/
def skipBlanks : Nat → Lexer → Lexer
  | 0, l => l
  | fuel + 1, l =>
    let c := l.cursor.skipWhile (· = ' ')
    let c := if c.rest.head? = some '#' then c.skipWhile (fun x => !isBreak x) else c
    match c.takeBreak? with
    | some (_, c) =>
      skipBlanks fuel { l with cursor := c, keyAllowed := l.keyAllowed || !l.inFlow }
    | none => { l with cursor := c }

/-- A document marker. -/
def marker (l : Lexer) (t : Token) : Except Fault Lexer := do
  let l ← (l.unwind (-1)).forgetKey
  return l.push t (l.cursor.skip 3) false

/-- The start of a flow collection. -/
def flowStart (l : Lexer) (t : Token) : Except Fault Lexer := do
  let l ← l.noteKey
  return { l.push t l.cursor.step true with keys := none :: l.keys }

/-- The end of a flow collection. -/
def flowEnd (l : Lexer) (t : Token) : Except Fault Lexer := do
  let l ← l.forgetKey
  if l.inFlow then return { l.push t l.cursor.step false with keys := l.keys.tail }
  else .error .noContent

/-- The comma between items of flow collections. -/
def comma (l : Lexer) : Except Fault Lexer := do
  let l ← l.forgetKey
  return l.push .comma l.cursor.step true

/-- The dash before an item of a block list. -/
def item (l : Lexer) : Except Fault Lexer := do
  if l.inFlow then
    let l ← l.forgetKey
    return l.push .item l.cursor.step true
  else if l.keyAllowed then
    let l ← (l.openBlock l.column l.tokens.length .listStart).forgetKey
    return l.push .item l.cursor.step true
  else .error .itemNotAllowed

/-- The question mark before a key. -/
def key (l : Lexer) : Except Fault Lexer := do
  if l.inFlow then
    let l ← l.forgetKey
    return l.push .key l.cursor.step false
  else if l.keyAllowed then
    let l ← (l.openBlock l.column l.tokens.length .mappingStart).forgetKey
    return l.push .key l.cursor.step true
  else .error .keyNotAllowed

/-- The colon before a value: the latest possible key is one. -/
def value (l : Lexer) : Except Fault Lexer :=
  match l.keys with
  | some k :: rest =>
    let l := { l with tokens := l.tokens.insertIdx k.before .key, keys := none :: rest }
    let l := if l.inFlow then l else l.openBlock k.column k.before .mappingStart
    .ok (l.push .value l.cursor.step false)
  | _ => do
    if l.inFlow then
      let l ← l.forgetKey
      return l.push .value l.cursor.step false
    else if l.keyAllowed then
      let l ← (l.openBlock l.column l.tokens.length .mappingStart).forgetKey
      return l.push .value l.cursor.step true
    else .error .valueNotAllowed

/-- A scalar in quotes. -/
def quoted (l : Lexer) (quote : Char) : Except Fault Lexer := do
  let l ← l.noteKey
  let (text, c) ← readQuoted quote l.cursor
  return l.push (.quoted text) c false

/-- A scalar without quotes. -/
def plain (l : Lexer) : Except Fault Lexer := do
  let l ← l.noteKey
  let (text, newline, c) := readPlain l.inFlow (l.indent + 1) l.cursor
  return l.push (.plain text) c newline

/-- The characters that cannot start a plain scalar. -/
def indicators : List Char :=
  ['-', '?', ':', '#', '&', '*', '!', '|', '>', '\'', '"', '%', '@', '\x60'] ++ flowMarks

/-- Whether a plain scalar can start with a character before a text. -/
def startsPlain (inFlow : Bool) (c : Char) (rest : List Char) : Bool :=
  !endsWord [c] && !indicators.contains c
    || !endsWord rest && (c = '-' || !inFlow && (c = '?' || c = ':'))

/-- The token that starts with a character before a text. -/
def token (l : Lexer) (c : Char) (rest : List Char) : Except Fault Lexer :=
  if l.cursor.column = 0 ∧ Cursor.startsWithThree '-' (c :: rest) then l.marker .documentStart
  else if l.cursor.column = 0 ∧ Cursor.startsWithThree '.' (c :: rest) then l.marker .documentEnd
  else if c = '[' then l.flowStart .flowListStart
  else if c = '\x7b' then l.flowStart .flowMappingStart
  else if c = ']' then l.flowEnd .flowListEnd
  else if c = '\x7d' then l.flowEnd .flowMappingEnd
  else if c = ',' then l.comma
  else if c = '-' ∧ endsWord rest then l.item
  else if c = '?' ∧ (l.inFlow ∨ endsWord rest) then l.key
  else if c = ':' ∧ (l.inFlow ∨ endsWord rest) then l.value
  else if c = '\'' ∨ c = '"' then l.quoted c
  else if startsPlain l.inFlow c rest then l.plain
  else if ['&', '*', '!', '|', '>', '%'].contains c then .error .unsupported
  else .error (.badStart c)

/-- The lexer after the next token, or the tokens of the whole text. -/
def next (l : Lexer) : Except Fault (Lexer ⊕ List Token) := do
  let l ← (skipBlanks (l.cursor.rest.length + 1) l).dropStale
  let l := l.unwind l.column
  match l.cursor.rest with
  | [] =>
    let l ← (l.unwind (-1)).forgetKey
    return .inr l.tokens
  | c :: rest => return .inl (← l.token c rest)

/-- Take at most `fuel` tokens, up to the end of the text. -/
def run : Nat → Lexer → Except Fault (List Token)
  | 0, l => .ok l.tokens
  | fuel + 1, l => do
    match ← l.next with
    | .inr ts => return ts
    | .inl l => run fuel l

end Lexer

/-- Whether a character may stand in a text. -/
def isAllowed (c : Char) : Bool :=
  let n := c.toNat
  n = 0x9 || n = 0xa || n = 0xd || n = 0x85 || decide (0x20 ≤ n ∧ n ≤ 0x7e)
    || decide (0xa0 ≤ n ∧ n ≤ 0xd7ff) || decide (0xe000 ≤ n ∧ n ≤ 0xfffd) || decide (0x10000 ≤ n)

/-- The tokens of a text.  Every token takes at least one character. -/
def tokens (text : String) : Except Fault (List Token) :=
  match text.toList.find? fun c => !isAllowed c with
  | some c => .error (.badCharacter c)
  | none => (Lexer.start text.toList).run (text.length + 1)

end MirRange.Yaml
