import MirRange.Document.Writer

/-!
# Reading JSON text

A reading function takes the characters that are left and returns what it read with the rest, or
stops at a fault.  A fault keeps the characters from the place it was met on, so its position is the
length of the text before them.

Besides standard JSON the numbers `NaN`, `Infinity` and `-Infinity` are read, and a repeated key
keeps its first place and its last value.

* `ReadFault`, `ReadError`: what can be wrong with a text, and where.
* `Document.readText`, `Document.readAtom`, `Document.readValue`: the reading functions.
* `Document.ofText`: a whole text as a document.
-/

namespace MirRange

/-- What can be wrong with a JSON text. -/
inductive ReadFault where
  | expectingValue
  | expectingName
  | expectingColon
  | expectingComma
  | extraData
  | unterminatedText
  | controlCharacter
  | badEscape
  | badCodeUnit
  | byteOrderMark
deriving Repr, DecidableEq

/-- The wording of a fault. -/
def ReadFault.message : ReadFault → String
  | .expectingValue => "Expecting value"
  | .expectingName => "Expecting property name enclosed in double quotes"
  | .expectingColon => "Expecting ':' delimiter"
  | .expectingComma => "Expecting ',' delimiter"
  | .extraData => "Extra data"
  | .unterminatedText => "Unterminated string starting at"
  | .controlCharacter => "Invalid control character at"
  | .badEscape => "Invalid \\escape"
  | .badCodeUnit => "Invalid \\uXXXX escape"
  | .byteOrderMark => "Unexpected UTF-8 BOM (decode using utf-8-sig)"

/-- A fault and the text from the place where it was met. -/
structure Stop where
  fault : ReadFault
  rest : List Char

/-- A fault at a position of a text; positions count characters from zero, lines and columns from
one. -/
structure ReadError where
  fault : ReadFault
  line : Nat
  column : Nat
  offset : Nat
deriving Repr, DecidableEq

namespace ReadError

/-- Where in `text` a reading function stopped. -/
def ofStop (text : List Char) (stop : Stop) : ReadError :=
  let offset := text.length - stop.rest.length
  let before := text.take offset
  { fault := stop.fault
    line := before.count '\n' + 1
    column := (before.reverse.takeWhile (· != '\n')).length + 1
    offset := offset }

/-- The wording of a fault with its position. -/
def message (e : ReadError) : String :=
  e.fault.message ++ ": line " ++ toString e.line ++ " column " ++ toString e.column
    ++ " (char " ++ toString e.offset ++ ")"

end ReadError

namespace Document

/-- The blanks between the tokens of a JSON text. -/
def isSpace (c : Char) : Bool :=
  c = ' ' || c = '\t' || c = '\n' || c = '\r'

/-- The text after its leading blanks. -/
def skipSpace (cs : List Char) : List Char :=
  cs.dropWhile isSpace

/-! ### Text -/

/-- The value of a hexadecimal digit. -/
def hexValue? (c : Char) : Option Nat :=
  let n := c.toNat
  if 0x30 ≤ n ∧ n ≤ 0x39 then some (n - 0x30)
  else if 0x61 ≤ n ∧ n ≤ 0x66 then some (n - 0x61 + 10)
  else if 0x41 ≤ n ∧ n ≤ 0x46 then some (n - 0x41 + 10)
  else none

/-- The code unit that four hexadecimal digits stand for. -/
def codeUnit? (a b c d : Char) : Option Nat := do
  let a ← hexValue? a
  let b ← hexValue? b
  let c ← hexValue? c
  let d ← hexValue? d
  return ((a * 16 + b) * 16 + c) * 16 + d

/-- Whether a code unit opens a surrogate pair. -/
def isHighUnit (n : Nat) : Bool :=
  0xd800 ≤ n && n < 0xdc00

/-- Whether a code unit closes a surrogate pair. -/
def isLowUnit (n : Nat) : Bool :=
  0xdc00 ≤ n && n < 0xe000

/-- The character of a code unit that stands alone. -/
def unitChar (n : Nat) : Char :=
  if isHighUnit n || isLowUnit n then Char.ofNat 0xfffd else Char.ofNat n

/-- The character of a surrogate pair. -/
def pairChar (high low : Nat) : Char :=
  Char.ofNat (0x10000 + (high - 0xd800) * 0x400 + (low - 0xdc00))

/-- The character that a letter after a backslash stands for. -/
def shortEscape? (c : Char) : Option Char :=
  if c = '"' ∨ c = '\\' ∨ c = '/' then some c
  else if c = 'b' then some (Char.ofNat 0x08)
  else if c = 'f' then some (Char.ofNat 0x0c)
  else if c = 'n' then some '\n'
  else if c = 'r' then some '\r'
  else if c = 't' then some '\t'
  else none

/-- The code unit after a `u`: four hexadecimal digits, with at least one more character behind
them. -/
def readUnit : List Char → Except Stop (Nat × List Char)
  | a :: b :: c :: d :: e :: rest =>
    match codeUnit? a b c d with
    | some n => .ok (n, e :: rest)
    | none => .error ⟨.badCodeUnit, 'u' :: a :: b :: c :: d :: e :: rest⟩
  | short => .error ⟨.badCodeUnit, 'u' :: short⟩

/-- The character after a `u`: one code unit, or a surrogate pair written as two of them. -/
def readUnits (cs : List Char) : Except Stop (Char × List Char) :=
  match readUnit cs with
  | .error stop => .error stop
  | .ok (n, rest) =>
    match isHighUnit n, rest with
    | true, '\\' :: 'u' :: a :: b :: c :: d :: e :: more =>
      match readUnit (a :: b :: c :: d :: e :: more) with
      | .error stop => .error stop
      | .ok (m, after) =>
        if isLowUnit m then .ok (pairChar n m, after) else .ok (unitChar n, rest)
    | _, _ => .ok (unitChar n, rest)

/-- The character that the text after a backslash stands for.  `start` is the text from the opening
quote on. -/
def readEscape (start : List Char) : List Char → Except Stop (Char × List Char)
  | [] => .error ⟨.unterminatedText, start⟩
  | c :: rest =>
    if c = 'u' then readUnits rest
    else
      match shortEscape? c with
      | some c => .ok (c, rest)
      | none => .error ⟨.badEscape, '\\' :: c :: rest⟩

theorem length_readUnit {cs rest : List Char} {n : Nat} (h : readUnit cs = .ok (n, rest)) :
    rest.length < cs.length := by
  unfold readUnit at h
  split at h
  · split at h
    · cases h
      simp only [List.length_cons]
      omega
    · cases h
  · cases h

theorem length_readUnits {cs rest : List Char} {c : Char} (h : readUnits cs = .ok (c, rest)) :
    rest.length < cs.length := by
  unfold readUnits at h
  split at h
  · cases h
  · rename_i n after hn
    have hlt := length_readUnit hn
    split at h
    · split at h
      · cases h
      · rename_i hm
        have hlt' := length_readUnit hm
        simp only [List.length_cons] at hlt hlt'
        split at h <;> simp only [Except.ok.injEq, Prod.mk.injEq] at h
        · rw [← h.2]
          omega
        · rw [← h.2]
          simp only [List.length_cons]
          omega
    · cases h
      exact hlt

/-- An escape is at least one character long. -/
theorem length_readEscape {start cs rest : List Char} {c : Char}
    (h : readEscape start cs = .ok (c, rest)) : rest.length < cs.length := by
  unfold readEscape at h
  split at h
  · cases h
  · split at h
    · have := length_readUnits h
      simp only [List.length_cons]
      omega
    · split at h
      · simp only [Except.ok.injEq, Prod.mk.injEq] at h
        simp [← h.2]
      · simp at h

/-- The characters of a text up to its closing quote.  `start` is the text from the opening quote
on, where a text without an end is reported. -/
def readText (start cs : List Char) : Except Stop (List Char × List Char) :=
  match cs with
  | [] => .error ⟨.unterminatedText, start⟩
  | c :: rest =>
    if c = '"' then .ok ([], rest)
    else if c = '\\' then
      match h : readEscape start rest with
      | .error stop => .error stop
      | .ok (c, after) =>
        have := length_readEscape h
        (readText start after).map fun (cs, rest) => (c :: cs, rest)
    else if c.toNat < 0x20 then .error ⟨.controlCharacter, cs⟩
    else (readText start rest).map fun (cs, rest) => (c :: cs, rest)
termination_by cs.length
decreasing_by all_goals simp only [List.length_cons]; omega

/-! ### Numbers and constants -/

/-- A run of digits and the text after it. -/
def readDigits (cs : List Char) : List Char × List Char :=
  (cs.takeWhile Char.isDigit, cs.dropWhile Char.isDigit)

/-- The whole part of a number: a single zero, or digits that start with another one. -/
def readWhole : List Char → Option (List Char × List Char)
  | [] => none
  | c :: rest =>
    if c = '0' then some ([c], rest)
    else if c.isDigit then some (readDigits (c :: rest))
    else none

/-- The digits after a decimal point; a point without digits is left unread. -/
def readFraction : List Char → Option (List Char) × List Char
  | '.' :: rest =>
    match readDigits rest with
    | ([], _) => (none, '.' :: rest)
    | (digits, rest) => (some digits, rest)
  | cs => (none, cs)

/-- The power of ten after an `e`; an `e` without digits is left unread. -/
def readExponent (cs : List Char) : Option Int × List Char :=
  match cs with
  | [] => (none, cs)
  | e :: rest =>
    if e = 'e' ∨ e = 'E' then
      let (negative, body) :=
        match rest with
        | '-' :: body => (true, body)
        | '+' :: body => (false, body)
        | body => (false, body)
      match readDigits body with
      | ([], _) => (none, cs)
      | (digits, rest) =>
        let size : Int := Numeral.toNat digits
        (some (if negative then -size else size), rest)
    else (none, cs)

/-- A number after its sign: an integer, or a float if it has a fraction or an exponent. -/
def readMagnitude (negative : Bool) (cs : List Char) : Option (Document × List Char) := do
  let (whole, rest) ← readWhole cs
  let (fraction, rest) := readFraction rest
  let (exponent, rest) := readExponent rest
  match fraction, exponent with
  | none, none =>
    let size : Int := Numeral.toNat whole
    return (.int (if negative then -size else size), rest)
  | _, _ =>
    let places := fraction.getD []
    let mantissa := Numeral.toNat (whole ++ places)
    return (.float (Numeral.toFloat negative mantissa (exponent.getD 0 - places.length)), rest)

/-- A number. -/
def readNumber : List Char → Option (Document × List Char)
  | '-' :: rest => readMagnitude true rest
  | cs => readMagnitude false cs

/-- A constant or a number. -/
def readAtom (cs : List Char) : Except Stop (Document × List Char) :=
  match cs with
  | 'n' :: 'u' :: 'l' :: 'l' :: rest => .ok (.null, rest)
  | 't' :: 'r' :: 'u' :: 'e' :: rest => .ok (.bool true, rest)
  | 'f' :: 'a' :: 'l' :: 's' :: 'e' :: rest => .ok (.bool false, rest)
  | 'N' :: 'a' :: 'N' :: rest => .ok (.float (0.0 / 0.0), rest)
  | 'I' :: 'n' :: 'f' :: 'i' :: 'n' :: 'i' :: 't' :: 'y' :: rest => .ok (.float (1.0 / 0.0), rest)
  | '-' :: 'I' :: 'n' :: 'f' :: 'i' :: 'n' :: 'i' :: 't' :: 'y' :: rest =>
    .ok (.float (-1.0 / 0.0), rest)
  | _ =>
    match readNumber cs with
    | some result => .ok result
    | none => .error ⟨.expectingValue, cs⟩

/-! ### Collections -/

/-- The members of an object as read, with repeated keys brought together. -/
def gather (ms : Members) : Members :=
  ms.foldl (fun acc m => Members.put acc m.1 m.2) []

mutual

/-- A value that starts at the first character. -/
def readValue : Nat → List Char → Except Stop (Document × List Char)
  | 0, cs => .error ⟨.expectingValue, cs⟩
  | fuel + 1, cs =>
    match cs with
    | [] => .error ⟨.expectingValue, cs⟩
    | c :: rest =>
      if c = '"' then do
        let (s, rest) ← readText cs rest
        return (.text (String.ofList s), rest)
      else if c = '[' then
        match skipSpace rest with
        | ']' :: rest => .ok (.list [], rest)
        | rest => do
          let (items, rest) ← readItems fuel rest
          return (.list items, rest)
      else if c = objectOpen then
        match skipSpace rest with
        | [] => .error ⟨.expectingName, []⟩
        | d :: more =>
          if d = objectClose then .ok (.object [], more)
          else do
            let (ms, rest) ← readMembers fuel (d :: more)
            return (.object (gather ms), rest)
      else readAtom cs

/-- One or more items of a list and the bracket that closes it. -/
def readItems : Nat → List Char → Except Stop (List Document × List Char)
  | 0, cs => .error ⟨.expectingValue, cs⟩
  | fuel + 1, cs => do
    let (d, rest) ← readValue fuel cs
    match skipSpace rest with
    | ']' :: rest => return ([d], rest)
    | ',' :: rest =>
      let (ds, rest) ← readItems fuel (skipSpace rest)
      return (d :: ds, rest)
    | rest => .error ⟨.expectingComma, rest⟩

/-- One or more members of an object and the brace that closes it. -/
def readMembers : Nat → List Char → Except Stop (Members × List Char)
  | 0, cs => .error ⟨.expectingName, cs⟩
  | fuel + 1, cs =>
    match cs with
    | '"' :: rest => do
      let (key, rest) ← readText cs rest
      match skipSpace rest with
      | ':' :: rest =>
        let (d, rest) ← readValue fuel (skipSpace rest)
        match skipSpace rest with
        | ',' :: rest =>
          let (ms, rest) ← readMembers fuel (skipSpace rest)
          return ((String.ofList key, d) :: ms, rest)
        | [] => .error ⟨.expectingComma, []⟩
        | c :: rest =>
          if c = objectClose then return ([(String.ofList key, d)], rest)
          else .error ⟨.expectingComma, c :: rest⟩
      | rest => .error ⟨.expectingColon, rest⟩
    | _ => .error ⟨.expectingName, cs⟩

end

/-- A whole text: one value between blanks.  A value inside another starts at least one character
later for every two steps of reading, so twice the length bounds the steps. -/
def readDocument (text : List Char) : Except Stop Document :=
  match text with
  | c :: _ =>
    if c.toNat = 0xfeff then .error ⟨.byteOrderMark, text⟩ else body
  | [] => body
where
  body : Except Stop Document := do
    let (d, rest) ← readValue (2 * text.length + 2) (skipSpace text)
    match skipSpace rest with
    | [] => return d
    | rest => .error ⟨.extraData, rest⟩

/-- The document that a JSON text stands for. -/
def ofText (text : String) : Except ReadError Document :=
  (readDocument text.toList).mapError (ReadError.ofStop text.toList)

end Document

end MirRange
