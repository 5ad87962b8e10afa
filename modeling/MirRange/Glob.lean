/-!
# Name patterns

A pattern describes whole names: `*` stands for any text, `?` for any character, and brackets for
one character of a set.  In a set, two characters around a dash are a range; a leading `!` takes the
characters that are not listed.

A bracket without an end stands for itself.  A closing bracket that comes first in a set belongs to
it.  A range whose ends are in the wrong order holds nothing: its two ends and its dash drop out
before anything else is looked at, which may leave a `!` in front.

* `Glob.Item`, `Glob.parse`: patterns and how they are read.
* `Glob.accepts`: whether a pattern describes a name.
-/

namespace MirRange.Glob

/-- One part of a pattern. -/
inductive Item where
  /-- Any text. -/
  | anything
  /-- Any one character. -/
  | anyChar
  /-- One character from some ranges, or one from none of them. -/
  | oneOf (complement : Bool) (ranges : List (Char × Char))
  | exactly (c : Char)
deriving Repr, DecidableEq

/-! ### Sets -/

/-- What comes before the first character `c` of a text, and what comes after it. -/
def splitAt (c : Char) (cs : List Char) : Option (List Char × List Char) :=
  match cs.dropWhile (· != c) with
  | _ :: rest => some (cs.takeWhile (· != c), rest)
  | [] => none

theorem length_splitAt {c : Char} {cs before rest : List Char}
    (h : splitAt c cs = some (before, rest)) : rest.length < cs.length := by
  unfold splitAt at h
  split at h
  · rename_i d after hs
    have hle := (List.dropWhile_sublist (· != c) (l := cs)).length_le
    simp only [Option.some.injEq, Prod.mk.injEq] at h
    rw [hs, List.length_cons, h.2] at hle
    exact hle
  · simp at h

/-- The text of a set up to its first dash that can join two ends: at least `least` characters come
before it. -/
def splitDash (least : Nat) (cs : List Char) : Option (List Char × List Char) :=
  (splitAt '-' (cs.drop least)).map fun (before, rest) => (cs.take least ++ before, rest)

theorem length_splitDash {least : Nat} {cs before rest : List Char}
    (h : splitDash least cs = some (before, rest)) : rest.length < cs.length := by
  unfold splitDash at h
  obtain ⟨⟨b, r⟩, hs, he⟩ := Option.map_eq_some_iff.mp h
  simp only [Prod.mk.injEq] at he
  have hlt := length_splitAt hs
  rw [List.length_drop, he.2] at hlt
  omega

/-- The text of a set cut at the dashes that make ranges. -/
def cutRanges (least : Nat) (cs : List Char) : List (List Char) :=
  match h : splitDash least cs with
  | some (before, rest) =>
    have := length_splitDash h
    before :: cutRanges 2 rest
  | none => [cs]
termination_by cs.length

/-- A dash at the very end makes no range: it belongs to the piece before it. -/
def keepLastDash : List (List Char) → List (List Char)
  | [] => []
  | [piece] => [piece]
  | [piece, []] => [piece ++ ['-']]
  | piece :: pieces => piece :: keepLastDash pieces

/-- Join neighbouring pieces whose range is in the wrong order, without its ends. -/
def dropInverted : List (List Char) → List (List Char)
  | [] => []
  | piece :: pieces =>
    match piece.getLast?, dropInverted pieces with
    | some a, (b :: next) :: rest =>
      if a > b then (piece.dropLast ++ next) :: rest else piece :: (b :: next) :: rest
    | _, rest => piece :: rest

/-- A character of a set, or the dash of a range. -/
inductive SetToken where
  | char (c : Char)
  | dash
deriving Repr, DecidableEq

/-- The pieces of a set with the dashes between them. -/
def setTokens : List (List Char) → List SetToken
  | [] => []
  | [piece] => piece.map .char
  | piece :: pieces => piece.map .char ++ .dash :: setTokens pieces

/-- The ranges of a set; a dash without a character before it is a character itself. -/
def setRanges : List SetToken → List (Char × Char)
  | [] => []
  | .char a :: .dash :: .char b :: rest => (a, b) :: setRanges rest
  | .char a :: rest => (a, a) :: setRanges rest
  | .dash :: rest => ('-', '-') :: setRanges rest

/-- The pattern that the text between two brackets stands for. -/
def parseSet (text : List Char) : Item :=
  let least := if text.head? = some '!' then 2 else 1
  match setTokens (dropInverted (keepLastDash (cutRanges least text))) with
  | [.char '!'] => .anyChar
  | .char '!' :: tokens => .oneOf true (setRanges tokens)
  | tokens => .oneOf false (setRanges tokens)

/-- A character at the front of a text, if it is there, and the text after it. -/
def splitFront (c : Char) : List Char → List Char × List Char
  | [] => ([], [])
  | d :: rest => if d = c then ([d], rest) else ([], d :: rest)

theorem length_splitFront (c : Char) (cs : List Char) : (splitFront c cs).2.length ≤ cs.length := by
  unfold splitFront
  split
  · simp
  · split <;> simp

/-- The text of a set after its opening bracket, and what follows its closing one. -/
def closeSet (cs : List Char) : Option (List Char × List Char) :=
  let (mark, cs) := splitFront '!' cs
  let (bracket, cs) := splitFront ']' cs
  (splitAt ']' cs).map fun (inner, rest) => (mark ++ bracket ++ inner, rest)

theorem length_closeSet {cs inner rest : List Char} (h : closeSet cs = some (inner, rest)) :
    rest.length < cs.length := by
  unfold closeSet at h
  obtain ⟨⟨i, r⟩, hs, he⟩ := Option.map_eq_some_iff.mp h
  simp only [Prod.mk.injEq] at he
  have hlt : r.length < (splitFront ']' (splitFront '!' cs).2).2.length := length_splitAt hs
  have h₁ := length_splitFront '!' cs
  have h₂ := length_splitFront ']' (splitFront '!' cs).2
  rw [← he.2]
  omega

/-! ### Patterns -/

/-- The pattern that a text stands for. -/
def parse (cs : List Char) : List Item :=
  match cs with
  | [] => []
  | c :: rest =>
    if c = '*' then .anything :: parse rest
    else if c = '?' then .anyChar :: parse rest
    else if c = '[' then
      match h : closeSet rest with
      | some (inner, after) =>
        have := length_closeSet h
        parseSet inner :: parse after
      | none => .exactly c :: parse rest
    else .exactly c :: parse rest
termination_by cs.length
decreasing_by all_goals simp_all <;> omega

/-- Whether a character can stand for an item. -/
def Item.accepts : Item → Char → Bool
  | .anything, _ => true
  | .anyChar, _ => true
  | .oneOf complement ranges, c => (ranges.any fun (a, b) => a ≤ c && c ≤ b) != complement
  | .exactly a, c => a = c

/-- Whether some end of a text has a property. -/
def someSuffix (p : List Char → Bool) : List Char → Bool
  | [] => p []
  | c :: cs => p (c :: cs) || someSuffix p cs

/-- Whether a pattern describes a whole text. -/
def describes : List Item → List Char → Bool
  | [], cs => cs.isEmpty
  | .anything :: items, cs => someSuffix (describes items) cs
  | _ :: _, [] => false
  | item :: items, c :: cs => item.accepts c && describes items cs

/-- Whether a pattern describes a name. -/
def accepts (pattern name : String) : Bool :=
  describes (parse pattern.toList) name.toList

end MirRange.Glob
