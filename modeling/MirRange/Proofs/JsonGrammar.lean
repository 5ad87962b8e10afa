import MirRange.Document.Reader
import MirRange.Proofs.Path

/-!
# Standard JSON and its reading

The grammar of JSON, as relations between what is meant and the characters that stand for it: a
character of a text can stand there as itself, by a short escape or by its code units, a number has
a whole part, a fraction and an exponent, and blanks may stand around every item, key and member.
The relations say nothing about how a text is read.

Every text of the grammar is read as the document that it stands for.  What a reading function takes
is settled token by token; a number ends only where what follows it cannot belong to it, which is
why the rest of the text appears in the statements.

* `Json.Spelling`: the ways in which a character can stand in a text, among them its code units
  (`Json.Escaped`); `Json.Quoted`: a text.
* `Json.Number`, `Json.Value`, `Json.Items`, `Json.Members`: numbers, values and collections.
* `Json.Element`: a value between blanks, which is what a whole text is.
* `Json.Ends`: what may follow a value.
* `Json.Value.readValue_eq`: a value is read, whatever follows it.
* `Json.Element.ofText_eq`: every text of the grammar is read as what it stands for.
-/

namespace MirRange

namespace Json

/-! ### The grammar -/

/-- The blanks of the grammar. -/
def blanks : List Char :=
  [' ', '\t', '\n', '\r']

/-- Nothing but blanks. -/
def Blank (cs : List Char) : Prop :=
  ∀ c ∈ cs, c ∈ blanks

/-- The hexadecimal digits in the order of their values, with small letters. -/
def smallHex : List Char :=
  ['0', '1', '2', '3', '4', '5', '6', '7', '8', '9', 'a', 'b', 'c', 'd', 'e', 'f']

/-- The hexadecimal digits in the order of their values, with capital letters. -/
def capitalHex : List Char :=
  ['0', '1', '2', '3', '4', '5', '6', '7', '8', '9', 'A', 'B', 'C', 'D', 'E', 'F']

/-- The hexadecimal digit of a value below 16, with either kind of letters. -/
def HexDigit (n : Nat) (c : Char) : Prop :=
  smallHex[n]? = some c ∨ capitalHex[n]? = some c

/-- A code unit in four hexadecimal digits. -/
inductive CodeUnit : Nat → List Char → Prop where
  | digits {k l m n : Nat} {a b c d : Char} (ha : HexDigit k a) (hb : HexDigit l b)
      (hc : HexDigit m c) (hd : HexDigit n d) :
      CodeUnit (((k * 16 + l) * 16 + m) * 16 + n) [a, b, c, d]

/-- What can follow a backslash, other than a code unit, with the character that is meant. -/
def shortForms : List (Char × Char) :=
  [('"', '"'), ('\\', '\\'), ('/', '/'), ('b', Char.ofNat 0x08), ('f', Char.ofNat 0x0c),
    ('n', '\n'), ('r', '\r'), ('t', '\t')]

/-- A character by its UTF-16 code units: one, or a high and a low one if it is beyond the first
2 ^ 16. -/
inductive Escaped : Char → List Char → Prop where
  | unit {c : Char} {us : List Char} (h : CodeUnit c.toNat us) : Escaped c ('\\' :: 'u' :: us)
  | pair {c : Char} {high low : Nat} {us vs : List Char} (hus : CodeUnit high us)
      (hvs : CodeUnit low vs) (hhigh : 0xd800 ≤ high ∧ high < 0xdc00)
      (hlow : 0xdc00 ≤ low ∧ low < 0xe000)
      (hc : c.toNat = 0x10000 + (high - 0xd800) * 0x400 + (low - 0xdc00)) :
      Escaped c ('\\' :: 'u' :: us ++ '\\' :: 'u' :: vs)

/-- The ways in which a character can stand in a text. -/
inductive Spelling : Char → List Char → Prop where
  | plain {c : Char} (hcontrol : 0x20 ≤ c.toNat) (hquote : c ≠ '"') (hbackslash : c ≠ '\\') :
      Spelling c [c]
  | short {e c : Char} (h : (e, c) ∈ shortForms) : Spelling c ['\\', e]
  | escaped {c : Char} {cs : List Char} (h : Escaped c cs) : Spelling c cs

/-- The characters of a text, one spelling after the other. -/
inductive Spellings : List Char → List Char → Prop where
  | nil : Spellings [] []
  | cons {c : Char} {cs s ss : List Char} (h : Spelling c cs) (hs : Spellings s ss) :
      Spellings (c :: s) (cs ++ ss)

/-- A text between double quotes. -/
inductive Quoted : String → List Char → Prop where
  | quotes {s : String} {ss : List Char} (h : Spellings s.toList ss) : Quoted s ('"' :: ss ++ ['"'])

/-- One or more decimal digits. -/
structure Digits (ds : List Char) : Prop where
  ne_nil : ds ≠ []
  isDigit : ∀ c ∈ ds, c.isDigit = true

/-- The whole part of a number: digits that do not start with a zero, unless it is the only one. -/
structure Whole (ds : List Char) : Prop extends Digits ds where
  leading : ds.head? = some '0' → ds = ['0']

/-- The fraction of a number, if there is one, with its digits. -/
inductive Fraction : Option (List Char) → List Char → Prop where
  | absent : Fraction none []
  | digits {ds : List Char} (h : Digits ds) : Fraction (some ds) ('.' :: ds)

/-- A number with a sign. -/
def signed (negative : Bool) (n : Nat) : Int :=
  if negative then -(n : Int) else n

/-- The sign of an exponent. -/
inductive Sign : Bool → List Char → Prop where
  | absent : Sign false []
  | plus : Sign false ['+']
  | minus : Sign true ['-']

/-- The exponent of a number, if there is one, with its value. -/
inductive Exponent : Option Int → List Char → Prop where
  | absent : Exponent none []
  | digits {e : Char} {negative : Bool} {sign ds : List Char} (he : e = 'e' ∨ e = 'E')
      (hsign : Sign negative sign) (h : Digits ds) :
      Exponent (some (signed negative (Nat.ofDigitChars 10 ds 0))) (e :: sign ++ ds)

/-- A number after its sign: a whole part alone is an integer, and with a fraction or an exponent it
is the float that is nearest. -/
inductive Magnitude (negative : Bool) : Document → List Char → Prop where
  | int {ds : List Char} (h : Whole ds) :
      Magnitude negative (.int (signed negative (Nat.ofDigitChars 10 ds 0))) ds
  | float {ws fs es : List Char} {places : Option (List Char)} {power : Option Int}
      (hws : Whole ws) (hfs : Fraction places fs) (hes : Exponent power es)
      (hsome : places ≠ none ∨ power ≠ none) :
      Magnitude negative
        (.float (Numeral.toFloat negative (Nat.ofDigitChars 10 (ws ++ places.getD []) 0)
          (power.getD 0 - (places.getD []).length)))
        (ws ++ (fs ++ es))

/-- A number. -/
inductive Number : Document → List Char → Prop where
  | plain {d : Document} {cs : List Char} (h : Magnitude false d cs) : Number d cs
  | minus {d : Document} {cs : List Char} (h : Magnitude true d cs) : Number d ('-' :: cs)

/-- A key of an object with the colon behind it. -/
inductive Key : String → List Char → Prop where
  | colon {k : String} {b ks b' : List Char} (hb : Blank b) (h : Quoted k ks) (hb' : Blank b') :
      Key k (b ++ (ks ++ (b' ++ [':'])))

mutual

/-- A value without blanks around it.  Where a key is repeated in an object, it keeps its first
place and its last value. -/
inductive Value : Document → List Char → Prop where
  | nullWord : Value .null ['n', 'u', 'l', 'l']
  | trueWord : Value (.bool true) ['t', 'r', 'u', 'e']
  | falseWord : Value (.bool false) ['f', 'a', 'l', 's', 'e']
  | number {d : Document} {cs : List Char} (h : Number d cs) : Value d cs
  | text {s : String} {cs : List Char} (h : Quoted s cs) : Value (.text s) cs
  | emptyList {b : List Char} (h : Blank b) : Value (.list []) ('[' :: b ++ [']'])
  | list {ds : List Document} {cs : List Char} (h : Items ds cs) :
      Value (.list ds) ('[' :: cs ++ [']'])
  | emptyObject {b : List Char} (h : Blank b) :
      Value (.object []) (Document.objectOpen :: b ++ [Document.objectClose])
  | object {ms : MirRange.Members} {cs : List Char} (h : Members ms cs) :
      Value (.object (Document.gather ms)) (Document.objectOpen :: cs ++ [Document.objectClose])

/-- A value between blanks. -/
inductive Element : Document → List Char → Prop where
  | padded {d : Document} {b cs b' : List Char} (hb : Blank b) (h : Value d cs) (hb' : Blank b') :
      Element d (b ++ (cs ++ b'))

/-- One or more items of a list, divided by commas. -/
inductive Items : List Document → List Char → Prop where
  | last {d : Document} {cs : List Char} (h : Element d cs) : Items [d] cs
  | more {d : Document} {cs : List Char} {ds : List Document} {rest : List Char} (h : Element d cs)
      (hds : Items ds rest) : Items (d :: ds) (cs ++ ',' :: rest)

/-- One or more members of an object, divided by commas. -/
inductive Members : MirRange.Members → List Char → Prop where
  | last {k : String} {ks : List Char} {d : Document} {cs : List Char} (hk : Key k ks)
      (h : Element d cs) : Members [(k, d)] (ks ++ cs)
  | more {k : String} {ks : List Char} {d : Document} {cs : List Char} {ms : MirRange.Members}
      {rest : List Char} (hk : Key k ks) (h : Element d cs) (hms : Members ms rest) :
      Members ((k, d) :: ms) (ks ++ (cs ++ ',' :: rest))

end

end Json

/-! ### Reading text -/

namespace Json

open Document

variable {c : Char} {n : Nat} {cs rest s after : List Char}

theorem HexDigit.lt (h : HexDigit n c) : n < 16 := by
  rcases h with h | h <;> exact (List.getElem?_eq_some_iff.1 h).1

theorem HexDigit.hexValue?_eq (h : HexDigit n c) : hexValue? c = some n := by
  have htable : ∀ n < 16, smallHex[n]?.bind hexValue? = some n ∧
      capitalHex[n]?.bind hexValue? = some n := by decide
  obtain ⟨hsmall, hcapital⟩ := htable n h.lt
  rcases h with h | h
  · rwa [h] at hsmall
  · rwa [h] at hcapital

theorem CodeUnit.readUnit_eq (h : CodeUnit n cs) (hrest : rest ≠ []) :
    readUnit (cs ++ rest) = .ok (n, rest) := by
  obtain ⟨ha, hb, hc, hd⟩ := h
  obtain ⟨e, rest, rfl⟩ := List.exists_cons_of_ne_nil hrest
  show readUnit (_ :: _ :: _ :: _ :: e :: rest) = _
  rw [readUnit, codeUnit?, ha.hexValue?_eq, hb.hexValue?_eq, hc.hexValue?_eq, hd.hexValue?_eq]
  rfl

/-- The numbers of characters: a character is not half of a surrogate pair. -/
theorem toNat_char (c : Char) :
    c.toNat < 0xd800 ∨ 0xe000 ≤ c.toNat ∧ c.toNat < 0x110000 := by
  rcases c.valid with h | h
  · exact .inl h
  · exact .inr ⟨h.1, h.2⟩

theorem readUnits_of_unit (h : CodeUnit c.toNat cs) (hrest : rest ≠ []) :
    readUnits (cs ++ rest) = .ok (c, rest) := by
  have hhigh : isHighUnit c.toNat = false := by
    have := toNat_char c
    simp only [isHighUnit, Bool.and_eq_false_iff, decide_eq_false_iff_not]
    omega
  have hlow : isLowUnit c.toNat = false := by
    have := toNat_char c
    simp only [isLowUnit, Bool.and_eq_false_iff, decide_eq_false_iff_not]
    omega
  simp [readUnits, h.readUnit_eq hrest, hhigh, hlow, unitChar]

theorem readUnits_of_pair {high low : Nat} {us vs : List Char} (hus : CodeUnit high us)
    (hvs : CodeUnit low vs) (hhigh : 0xd800 ≤ high ∧ high < 0xdc00)
    (hlow : 0xdc00 ≤ low ∧ low < 0xe000)
    (hc : c.toNat = 0x10000 + (high - 0xd800) * 0x400 + (low - 0xdc00)) (hrest : rest ≠ []) :
    readUnits (us ++ '\\' :: 'u' :: vs ++ rest) = .ok (c, rest) := by
  have hishigh : isHighUnit high = true := by simp [isHighUnit, hhigh]
  have hislow : isLowUnit low = true := by simp [isLowUnit, hlow]
  have hchar : pairChar high low = c := by rw [pairChar, ← hc, Char.ofNat_toNat]
  have hsecond := hvs.readUnit_eq hrest
  rw [List.append_assoc, List.cons_append, List.cons_append, readUnits,
    hus.readUnit_eq (List.cons_ne_nil _ _)]
  obtain ⟨ha, hb, hc, hd⟩ := hvs
  obtain ⟨e, rest, rfl⟩ := List.exists_cons_of_ne_nil hrest
  simp only [List.cons_append, List.nil_append] at hsecond ⊢
  simp [hishigh, hsecond, hislow, hchar]

theorem readText_escape {start : List Char} (h : readEscape start cs = .ok (c, rest))
    (hrest : readText start rest = .ok (s, after)) :
    readText start ('\\' :: cs) = .ok (c :: s, after) := by
  rw [readText, if_neg (by decide), if_pos rfl]
  split
  · rename_i stop hstop
    cases h.symm.trans hstop
  · rename_i c' rest' hok
    rw [h, Except.ok.injEq, Prod.mk.injEq] at hok
    obtain ⟨rfl, rfl⟩ := hok
    rw [hrest]
    rfl

/-- **One character is read, however it is spelled**, if what follows is the rest of a text. -/
theorem Spelling.readText_eq {start : List Char} (h : Spelling c cs)
    (hrest : readText start rest = .ok (s, after)) :
    readText start (cs ++ rest) = .ok (c :: s, after) := by
  have hne : rest ≠ [] := by
    intro hnil
    rw [hnil, readText] at hrest
    cases hrest
  cases h with
  | plain hcontrol hquote hbackslash =>
    show readText start (c :: rest) = _
    rw [readText, if_neg hquote, if_neg hbackslash, if_neg (by omega), hrest]
    rfl
  | @short e _ hmem =>
    have htable : ∀ p ∈ shortForms, p.1 ≠ 'u' ∧ shortEscape? p.1 = some p.2 := by decide
    obtain ⟨hu, hshort⟩ := htable _ hmem
    have hescape : readEscape start (e :: rest) = .ok (c, rest) := by
      rw [readEscape, if_neg hu, hshort]
    exact readText_escape hescape hrest
  | escaped h =>
    cases h with
    | @unit us hus =>
      have hescape : readEscape start ('u' :: (us ++ rest)) = .ok (c, rest) := by
        rw [readEscape, if_pos rfl]
        exact readUnits_of_unit hus hne
      exact readText_escape hescape hrest
    | @pair high low us vs hus hvs hhigh hlow hc =>
      have hescape :
          readEscape start ('u' :: (us ++ '\\' :: 'u' :: vs ++ rest)) = .ok (c, rest) := by
        rw [readEscape, if_pos rfl]
        exact readUnits_of_pair hus hvs hhigh hlow hc hne
      exact readText_escape hescape hrest

/-- **A text is read up to its closing quote.** -/
theorem Spellings.readText_eq (start : List Char) (h : Spellings s cs) :
    readText start (cs ++ '"' :: rest) = .ok (s, rest) := by
  induction h with
  | nil =>
    show readText start ('"' :: rest) = _
    rw [readText, if_pos rfl]
  | cons h hs ih =>
    rw [List.append_assoc]
    exact h.readText_eq ih

/-! ### Reading numbers -/

/-- What may stand behind a value: a blank, a comma or a closing bracket, if anything. -/
def Ends (rest : List Char) : Prop :=
  ∀ c, rest.head? = some c → c ∈ blanks ++ [',', ']', objectClose]

theorem ends_nil : Ends [] := by
  intro c h
  cases h

theorem ends_cons (h : c ∈ blanks ++ [',', ']', objectClose]) : Ends (c :: rest) := by
  intro c' hc'
  obtain rfl : c = c' := Option.some.inj hc'
  exact h

theorem Blank.ends_append {b : List Char} (hb : Blank b) (h : Ends rest) : Ends (b ++ rest) := by
  cases b with
  | nil => exact h
  | cons c b =>
    have hc := hb c List.mem_cons_self
    exact ends_cons (List.mem_append_left _ hc)

/-- No digit comes first. -/
def NoDigit (rest : List Char) : Prop :=
  ∀ c, rest.head? = some c → c.isDigit = false

/-- A run of digits ends where no digit follows. -/
theorem Digits.readDigits_eq {ds : List Char} (h : Digits ds) (hrest : NoDigit rest) :
    readDigits (ds ++ rest) = (ds, rest) := by
  have hstop : rest.takeWhile Char.isDigit = [] ∧ rest.dropWhile Char.isDigit = rest := by
    cases rest with
    | nil => exact ⟨rfl, rfl⟩
    | cons c rest =>
      have hc := hrest c rfl
      simp [hc]
  rw [readDigits, List.takeWhile_append_of_pos h.isDigit, List.dropWhile_append_of_pos h.isDigit,
    hstop.1, hstop.2, List.append_nil]

/-- The first of some digits. -/
theorem Digits.exists_head {ds : List Char} (h : Digits ds) :
    ∃ c tail, ds = c :: tail ∧ c.isDigit = true := by
  obtain ⟨c, tail, rfl⟩ := List.exists_cons_of_ne_nil h.ne_nil
  exact ⟨c, tail, rfl, h.isDigit c List.mem_cons_self⟩

theorem Whole.readWhole_eq {ds : List Char} (h : Whole ds) (hrest : NoDigit rest) :
    readWhole (ds ++ rest) = some (ds, rest) := by
  obtain ⟨c, tail, rfl, hc⟩ := h.toDigits.exists_head
  rw [List.cons_append, readWhole]
  by_cases hzero : c = '0'
  · subst hzero
    obtain rfl : tail = [] := (List.cons.inj (h.leading rfl)).2
    rfl
  · rw [if_neg hzero, if_pos hc, ← List.cons_append, h.toDigits.readDigits_eq hrest]

/-- What may follow the whole part and the fraction of a number: no digit, and no point. -/
def NoFraction (rest : List Char) : Prop :=
  NoDigit rest ∧ ∀ tail, rest ≠ '.' :: tail

theorem Ends.noFraction (h : Ends rest) : NoFraction rest := by
  have htable : ∀ c ∈ blanks ++ [',', ']', objectClose], c.isDigit = false ∧ c ≠ '.' := by
    simp [blanks, objectClose]
  refine ⟨fun c hc => (htable c (h c hc)).1, ?_⟩
  intro tail htail
  subst htail
  exact (htable '.' (h '.' rfl)).2 rfl

theorem noFraction_cons (hdigit : c.isDigit = false) (hpoint : c ≠ '.') :
    NoFraction (c :: rest) := by
  constructor
  · intro c' hc'
    obtain rfl : c = c' := Option.some.inj hc'
    exact hdigit
  · intro tail htail
    exact hpoint (List.cons.inj htail).1

theorem Exponent.noFraction {power : Option Int} {es : List Char} (h : Exponent power es)
    (hrest : Ends rest) : NoFraction (es ++ rest) := by
  cases h with
  | absent => exact hrest.noFraction
  | digits he hsign hds =>
    rcases he with rfl | rfl <;> exact noFraction_cons (by decide) (by decide)

theorem Fraction.noDigit {places : Option (List Char)} {fs : List Char} (h : Fraction places fs)
    (hrest : NoFraction rest) : NoDigit (fs ++ rest) := by
  cases h with
  | absent => exact hrest.1
  | digits hds =>
    intro c hc
    obtain rfl : '.' = c := Option.some.inj hc
    decide

theorem Fraction.readFraction_eq {places : Option (List Char)} {fs : List Char}
    (h : Fraction places fs) (hrest : NoFraction rest) :
    readFraction (fs ++ rest) = (places, rest) := by
  cases h with
  | absent =>
    show readFraction rest = (none, rest)
    unfold readFraction
    split
    · exact absurd rfl (hrest.2 _)
    · rfl
  | digits hds =>
    rw [List.cons_append, readFraction, hds.readDigits_eq hrest.1]
    obtain ⟨c, tail, rfl, -⟩ := hds.exists_head
    rfl

theorem Exponent.readExponent_eq {power : Option Int} {es : List Char} (h : Exponent power es)
    (hrest : Ends rest) : readExponent (es ++ rest) = (power, rest) := by
  cases h with
  | absent =>
    cases rest with
    | nil => rfl
    | cons c rest =>
      have htable : ∀ c ∈ blanks ++ [',', ']', objectClose], ¬(c = 'e' ∨ c = 'E') := by
        simp [blanks, objectClose]
      exact if_neg (htable c (hrest c rfl))
  | @digits e negative sign ds he hsign hds =>
    have hdigits := hds.readDigits_eq hrest.noFraction.1
    obtain ⟨c, tail, rfl, hc⟩ := hds.exists_head
    -- each form of a sign leaves the same digits to be read
    cases hsign with
    | absent =>
      show readExponent (e :: (c :: tail ++ rest)) = _
      rw [readExponent, if_pos he, hdigits]
      · rfl
      · intro body hbody
        rw [(List.cons.inj hbody).1] at hc
        cases hc
      · intro body hbody
        rw [(List.cons.inj hbody).1] at hc
        cases hc
    | plus =>
      show readExponent (e :: '+' :: (c :: tail ++ rest)) = _
      rw [readExponent, if_pos he, hdigits]
      rfl
    | minus =>
      show readExponent (e :: '-' :: (c :: tail ++ rest)) = _
      rw [readExponent, if_pos he, hdigits]
      rfl

theorem Magnitude.readMagnitude_eq {negative : Bool} {d : Document} (h : Magnitude negative d cs)
    (hrest : Ends rest) : readMagnitude negative (cs ++ rest) = some (d, rest) := by
  cases h with
  | int hws =>
    have hwhole := hws.readWhole_eq hrest.noFraction.1
    have hfraction : readFraction rest = (none, rest) :=
      Fraction.absent.readFraction_eq hrest.noFraction
    have hexponent : readExponent rest = (none, rest) := Exponent.absent.readExponent_eq hrest
    simp only [readMagnitude, hwhole, Option.bind_eq_bind, Option.bind_some, hfraction, hexponent]
    rfl
  | float hws hfs hes hsome =>
    have hfollow := hes.noFraction hrest
    have hwhole := hws.readWhole_eq (hfs.noDigit hfollow)
    have hfraction := hfs.readFraction_eq hfollow
    have hexponent := hes.readExponent_eq hrest
    simp only [List.append_assoc, readMagnitude, hwhole, Option.bind_eq_bind, Option.bind_some,
      hfraction, hexponent]
    -- without a fraction and an exponent the number would be an integer
    cases hfs with
    | digits hds => rfl
    | absent =>
      cases hes with
      | digits he hsign hds => rfl
      | absent => simp at hsome

/-- The first digit of a number after its sign. -/
theorem Magnitude.exists_head {negative : Bool} {d : Document} (h : Magnitude negative d cs) :
    ∃ c tail, cs = c :: tail ∧ c.isDigit = true := by
  cases h with
  | int hws => exact hws.toDigits.exists_head
  | float hws hfs hes hsome =>
    obtain ⟨c, tail, rfl, hc⟩ := hws.toDigits.exists_head
    exact ⟨c, _, rfl, hc⟩

/-- What starts with a digit is read as a number. -/
theorem readAtom_of_isDigit {d : Document} (hc : c.isDigit = true)
    (h : readMagnitude false (c :: cs) = some (d, rest)) : readAtom (c :: cs) = .ok (d, rest) := by
  have hnumber : readNumber (c :: cs) = some (d, rest) := by
    rw [readNumber]
    · exact h
    · intro tail htail
      obtain rfl : c = '-' := (List.cons.inj htail).1
      cases hc
  rw [readAtom, hnumber]
  all_goals
    intro tail htail
    obtain rfl := (List.cons.inj htail).1
    cases hc

/-- What starts with a minus sign and a digit is read as a number. -/
theorem readAtom_of_minus {d : Document} (hc : c.isDigit = true)
    (h : readMagnitude true (c :: cs) = some (d, rest)) :
    readAtom ('-' :: c :: cs) = .ok (d, rest) := by
  rw [readAtom, readNumber, h]
  all_goals
    intro tail htail
    cases htail
  cases hc

theorem Number.readAtom_eq {d : Document} (h : Number d cs) (hrest : Ends rest) :
    readAtom (cs ++ rest) = .ok (d, rest) := by
  cases h with
  | plain hmag =>
    have hread := hmag.readMagnitude_eq hrest
    obtain ⟨c, tail, rfl, hc⟩ := hmag.exists_head
    exact readAtom_of_isDigit hc hread
  | minus hmag =>
    have hread := hmag.readMagnitude_eq hrest
    obtain ⟨c, tail, rfl, hc⟩ := hmag.exists_head
    exact readAtom_of_minus hc hread

/-! ### Reading collections -/

theorem isSpace_eq_true : isSpace c = true ↔ c ∈ blanks := by
  simp [isSpace, blanks, or_assoc]

theorem Blank.skipSpace_append {b : List Char} (hb : Blank b) :
    skipSpace (b ++ rest) = skipSpace rest :=
  List.dropWhile_append_of_pos fun c hc => isSpace_eq_true.2 (hb c hc)

theorem skipSpace_cons (h : isSpace c = false) : skipSpace (c :: cs) = c :: cs :=
  List.dropWhile_cons_of_neg (by simp [h])

/-- How a value can start: not with a blank, a closing bracket or the mark of a byte order. -/
structure Opens (c : Char) : Prop where
  isSpace : isSpace c = false
  ne_close : c ≠ ']'
  ne_mark : c.toNat ≠ 0xfeff

theorem opens_of_isDigit (h : c.isDigit = true) : Opens c := by
  have htable : ∀ e ∈ blanks, e.isDigit = false := by simp [blanks]
  have hle : c.toNat ≤ 57 := by
    simp only [Char.isDigit, Bool.and_eq_true, decide_eq_true_eq] at h
    exact h.2
  refine ⟨?_, ?_, by omega⟩
  · rw [Bool.eq_false_iff]
    intro hspace
    cases h.symm.trans (htable c (isSpace_eq_true.1 hspace))
  · intro hclose
    rw [hclose] at h
    cases h

theorem opens_of_mem (h : c ∈ ['n', 't', 'f', '-', '"', '[', objectOpen]) : Opens c := by
  have htable : ∀ c ∈ ['n', 't', 'f', '-', '"', '[', objectOpen],
      isSpace c = false ∧ c ≠ ']' ∧ c.toNat ≠ 0xfeff := by simp [isSpace, objectOpen]
  obtain ⟨hspace, hclose, hmark⟩ := htable c h
  exact ⟨hspace, hclose, hmark⟩

theorem Quoted.exists_tail {k : String} (h : Quoted k cs) : ∃ tail, cs = '"' :: tail := by
  cases h with
  | quotes h => exact ⟨_, rfl⟩

theorem Value.exists_head {d : Document} (h : Value d cs) : ∃ c tail, cs = c :: tail ∧ Opens c := by
  cases h with
  | nullWord => exact ⟨_, _, rfl, opens_of_mem (by decide)⟩
  | trueWord => exact ⟨_, _, rfl, opens_of_mem (by decide)⟩
  | falseWord => exact ⟨_, _, rfl, opens_of_mem (by decide)⟩
  | number h =>
    cases h with
    | plain hmag =>
      obtain ⟨c, tail, rfl, hc⟩ := hmag.exists_head
      exact ⟨c, tail, rfl, opens_of_isDigit hc⟩
    | minus hmag => exact ⟨_, _, rfl, opens_of_mem (by decide)⟩
  | text h =>
    obtain ⟨tail, rfl⟩ := h.exists_tail
    exact ⟨_, _, rfl, opens_of_mem (by decide)⟩
  | emptyList h => exact ⟨_, _, rfl, opens_of_mem (by decide)⟩
  | list h => exact ⟨_, _, rfl, opens_of_mem (by decide)⟩
  | emptyObject h => exact ⟨_, _, rfl, opens_of_mem (by decide)⟩
  | object h => exact ⟨_, _, rfl, opens_of_mem (by decide)⟩

/-- A quoted text is read up to its closing quote. -/
theorem Quoted.readText_eq {k : String} (h : Quoted k cs) (rest : List Char) :
    ∃ tail, cs ++ rest = '"' :: tail ∧
      ∀ start, readText start tail = .ok (k.toList, rest) := by
  cases h with
  | @quotes ss hss => exact ⟨ss ++ '"' :: rest, by simp, fun start => hss.readText_eq start⟩

theorem readValue_text {k : String} (h : Quoted k cs) (fuel : Nat) :
    readValue (fuel + 1) (cs ++ rest) = .ok (.text k, rest) := by
  obtain ⟨tail, htail, hread⟩ := h.readText_eq rest
  rw [htail, readValue, if_pos rfl, hread]
  show Except.ok (Document.text (String.ofList k.toList), rest) = _
  rw [String.ofList_toList]

theorem readValue_atom {d : Document} {fuel : Nat} (h : readAtom (c :: cs) = .ok (d, rest))
    (hquote : c ≠ '"') (hlist : c ≠ '[') (hobject : c ≠ objectOpen) :
    readValue (fuel + 1) (c :: cs) = .ok (d, rest) := by
  rw [readValue, if_neg hquote, if_neg hlist, if_neg hobject, h]

theorem readValue_number {d : Document} (h : Number d cs) (hrest : Ends rest) (fuel : Nat) :
    readValue (fuel + 1) (cs ++ rest) = .ok (d, rest) := by
  have hatom := h.readAtom_eq hrest
  cases h with
  | plain hmag =>
    obtain ⟨c, tail, rfl, hc⟩ := hmag.exists_head
    refine readValue_atom hatom ?_ ?_ ?_ <;> intro hne <;> rw [hne] at hc <;> cases hc
  | minus hmag => exact readValue_atom hatom (by decide) (by decide) (by decide)

theorem readValue_emptyList {b : List Char} (hb : Blank b) (fuel : Nat) :
    readValue (fuel + 1) ('[' :: b ++ [']'] ++ rest) = .ok (.list [], rest) := by
  have hskip : skipSpace (b ++ [']'] ++ rest) = ']' :: rest := by
    rw [List.append_assoc, hb.skipSpace_append]
    exact skipSpace_cons (by decide)
  rw [List.cons_append, List.cons_append, readValue, if_neg (by decide), if_pos rfl, hskip]
  rfl

theorem readValue_emptyObject {b : List Char} (hb : Blank b) (fuel : Nat) :
    readValue (fuel + 1) (objectOpen :: b ++ [objectClose] ++ rest) = .ok (.object [], rest) := by
  have hskip : skipSpace (b ++ [objectClose] ++ rest) = objectClose :: rest := by
    rw [List.append_assoc, hb.skipSpace_append]
    exact skipSpace_cons (by decide)
  rw [List.cons_append, List.cons_append, readValue, if_neg (by decide), if_neg (by decide),
    if_pos rfl, hskip]
  rfl

theorem readValue_list {ds : List Document} {fuel : Nat}
    (h : readItems fuel (skipSpace cs) = .ok (ds, rest))
    (hclose : ∀ tail, skipSpace cs ≠ ']' :: tail) :
    readValue (fuel + 1) ('[' :: cs) = .ok (.list ds, rest) := by
  rw [readValue, if_neg (by decide), if_pos rfl]
  split
  · rename_i tail htail
    exact absurd htail (hclose tail)
  · rw [h]
    rfl

theorem readValue_object {ms : MirRange.Members} {fuel : Nat}
    (h : readMembers fuel (skipSpace cs) = .ok (ms, rest))
    (hquote : ∃ tail, skipSpace cs = '"' :: tail) :
    readValue (fuel + 1) (objectOpen :: cs) = .ok (.object (gather ms), rest) := by
  obtain ⟨tail, htail⟩ := hquote
  rw [htail] at h
  rw [readValue, if_neg (by decide), if_neg (by decide), if_pos rfl, htail]
  show (if '"' = objectClose then _ else _) = _
  rw [if_neg (by decide), h]
  rfl

theorem readItems_last {d : Document} {fuel : Nat} (h : readValue fuel cs = .ok (d, rest))
    (hclose : skipSpace rest = ']' :: after) : readItems (fuel + 1) cs = .ok ([d], after) := by
  simp only [readItems, h, hclose, bind, Except.bind]
  rfl

theorem readItems_more {d : Document} {ds : List Document} {fuel : Nat}
    (h : readValue fuel cs = .ok (d, rest)) (hcomma : skipSpace rest = ',' :: s)
    (hds : readItems fuel (skipSpace s) = .ok (ds, after)) :
    readItems (fuel + 1) cs = .ok (d :: ds, after) := by
  simp only [readItems, h, hcomma, hds, bind, Except.bind]
  rfl

/-- A key is read up to the colon behind it. -/
theorem Key.readText_eq {k : String} {ks : List Char} (h : Key k ks) (cs : List Char) :
    ∃ tail, skipSpace (ks ++ cs) = '"' :: tail ∧
      ∀ start, ∃ rest, readText start tail = .ok (k.toList, rest) ∧ skipSpace rest = ':' :: cs := by
  cases h with
  | @colon b ks b' hb hk hb' =>
    obtain ⟨tail, htail, hread⟩ := hk.readText_eq (b' ++ ':' :: cs)
    refine ⟨tail, ?_, fun start => ⟨_, hread start, ?_⟩⟩
    · have hassoc : b ++ (ks ++ (b' ++ [':'])) ++ cs = b ++ (ks ++ (b' ++ ':' :: cs)) := by simp
      rw [hassoc, hb.skipSpace_append, htail, skipSpace_cons (by decide)]
    · rw [hb'.skipSpace_append, skipSpace_cons (by decide)]

theorem readMembers_last {k : String} {ks : List Char} {d : Document} {fuel : Nat} (hk : Key k ks)
    (h : readValue fuel (skipSpace cs) = .ok (d, rest))
    (hclose : skipSpace rest = objectClose :: after) :
    readMembers (fuel + 1) (skipSpace (ks ++ cs)) = .ok ([(k, d)], after) := by
  obtain ⟨tail, htail, hread⟩ := hk.readText_eq cs
  obtain ⟨colon, hkey, hcolon⟩ := hread ('"' :: tail)
  simp only [htail, readMembers, hkey, hcolon, h, hclose, bind, Except.bind, String.ofList_toList]
  rfl

theorem readMembers_more {k : String} {ks : List Char} {d : Document} {ms : MirRange.Members}
    {fuel : Nat} (hk : Key k ks) (h : readValue fuel (skipSpace cs) = .ok (d, rest))
    (hcomma : skipSpace rest = ',' :: s)
    (hms : readMembers fuel (skipSpace s) = .ok (ms, after)) :
    readMembers (fuel + 1) (skipSpace (ks ++ cs)) = .ok ((k, d) :: ms, after) := by
  obtain ⟨tail, htail, hread⟩ := hk.readText_eq cs
  obtain ⟨colon, hkey, hcolon⟩ := hread ('"' :: tail)
  simp only [htail, readMembers, hkey, hcolon, h, hcomma, hms, bind, Except.bind,
    String.ofList_toList]
  rfl

theorem Element.exists_head {d : Document} (h : Element d cs) (rest : List Char) :
    ∃ c tail, skipSpace (cs ++ rest) = c :: tail ∧ Opens c := by
  cases h with
  | @padded _ b v b' hb hv hb' =>
    obtain ⟨c, tail, rfl, hc⟩ := hv.exists_head
    refine ⟨c, tail ++ b' ++ rest, ?_, hc⟩
    rw [List.append_assoc, hb.skipSpace_append, List.cons_append, List.cons_append,
      skipSpace_cons hc.isSpace]

theorem Items.exists_head {ds : List Document} (h : Items ds cs) (rest : List Char) :
    ∃ c tail, skipSpace (cs ++ rest) = c :: tail ∧ Opens c := by
  cases h with
  | last h => exact h.exists_head rest
  | more h hds =>
    rw [List.append_assoc]
    exact h.exists_head _

theorem Members.exists_head {ms : MirRange.Members} (h : Members ms cs) (rest : List Char) :
    ∃ tail, skipSpace (cs ++ rest) = '"' :: tail := by
  cases h with
  | last hk h =>
    rw [List.append_assoc]
    obtain ⟨tail, htail, -⟩ := hk.readText_eq _
    exact ⟨tail, htail⟩
  | more hk h hms =>
    rw [List.append_assoc]
    obtain ⟨tail, htail, -⟩ := hk.readText_eq _
    exact ⟨tail, htail⟩

mutual

/-- **A value is read whatever follows it**, as long as that cannot belong to it.  The number of
steps that is needed is bounded by the length of the text. -/
theorem Value.readValue_eq {d : Document} {cs : List Char} (n : Nat) {rest : List Char} :
    Value d cs → 2 * cs.length ≤ n + 1 → Ends rest → readValue (n + 1) (cs ++ rest) = .ok (d, rest)
  | .nullWord, _, _ => readValue_atom rfl (by decide) (by decide) (by decide)
  | .trueWord, _, _ => readValue_atom rfl (by decide) (by decide) (by decide)
  | .falseWord, _, _ => readValue_atom rfl (by decide) (by decide) (by decide)
  | .number h, _, hrest => readValue_number h hrest n
  | .text h, _, _ => readValue_text h n
  | .emptyList hb, _, _ => readValue_emptyList hb n
  | @Value.list ds cs h, hn, _ => by
    -- the two brackets pay for the step to the items
    have hlength : 2 * cs.length + 2 ≤ n := by
      simp only [List.length_append, List.length_cons, List.length_nil] at hn
      omega
    obtain ⟨c, tail, htail, hc⟩ := h.exists_head (']' :: rest)
    rw [List.cons_append, List.cons_append, List.append_assoc]
    refine readValue_list (h.readItems_eq rest hlength) ?_
    intro tail' htail'
    exact hc.ne_close (List.cons.inj (htail.symm.trans htail')).1
  | .emptyObject hb, _, _ => readValue_emptyObject hb n
  | @Value.object ms cs h, hn, _ => by
    have hlength : 2 * cs.length + 2 ≤ n := by
      simp only [List.length_append, List.length_cons, List.length_nil] at hn
      omega
    rw [List.cons_append, List.cons_append, List.append_assoc]
    exact readValue_object (h.readMembers_eq rest hlength) (h.exists_head _)

/-- A value between blanks is read up to the blanks behind it. -/
theorem Element.readValue_eq {d : Document} {cs : List Char} (n : Nat) {rest : List Char} :
    Element d cs → 2 * cs.length ≤ n + 1 → Ends rest →
      ∃ after, readValue (n + 1) (skipSpace (cs ++ rest)) = .ok (d, after) ∧
        skipSpace after = skipSpace rest
  | @Element.padded _ b cs b' hb h hb', hn, hrest => by
    have hlength : 2 * cs.length ≤ n + 1 := by
      simp only [List.length_append] at hn
      omega
    have hread := h.readValue_eq n hlength (hb'.ends_append hrest)
    refine ⟨b' ++ rest, ?_, hb'.skipSpace_append⟩
    obtain ⟨c, tail, rfl, hc⟩ := h.exists_head
    rw [List.append_assoc, hb.skipSpace_append, List.append_assoc, ← hread]
    rw [List.cons_append, skipSpace_cons hc.isSpace]

theorem Items.readItems_eq {ds : List Document} {cs : List Char} {n : Nat} (rest : List Char) :
    Items ds cs → 2 * cs.length + 2 ≤ n →
      readItems n (skipSpace (cs ++ ']' :: rest)) = .ok (ds, rest)
  | .last h, hn => by
    obtain ⟨k, rfl⟩ : ∃ k, n = k + 2 := ⟨n - 2, by omega⟩
    have hends : Ends (']' :: rest) := ends_cons (by decide)
    obtain ⟨after, hread, hafter⟩ := h.readValue_eq k (by omega) hends
    rw [skipSpace_cons (by decide)] at hafter
    exact readItems_last hread hafter
  | @Items.more d cs ds tail h hds, hn => by
    obtain ⟨k, rfl⟩ : ∃ k, n = k + 2 := ⟨n - 2, by omega⟩
    rw [List.length_append, List.length_cons] at hn
    have hends : Ends (',' :: (tail ++ ']' :: rest)) := ends_cons (by decide)
    obtain ⟨after, hread, hafter⟩ := h.readValue_eq k (by omega) hends
    have hmore : readItems (k + 1) (skipSpace (tail ++ ']' :: rest)) = .ok (ds, rest) :=
      hds.readItems_eq rest (by omega)
    rw [skipSpace_cons (by decide)] at hafter
    rw [List.append_assoc]
    exact readItems_more hread hafter hmore

theorem Members.readMembers_eq {ms : MirRange.Members} {cs : List Char} {n : Nat}
    (rest : List Char) :
    Members ms cs → 2 * cs.length + 2 ≤ n →
      readMembers n (skipSpace (cs ++ objectClose :: rest)) = .ok (ms, rest)
  | .last hk h, hn => by
    obtain ⟨k, rfl⟩ : ∃ k, n = k + 2 := ⟨n - 2, by omega⟩
    rw [List.length_append] at hn
    have hends : Ends (objectClose :: rest) := ends_cons (by decide)
    obtain ⟨after, hread, hafter⟩ := h.readValue_eq k (by omega) hends
    rw [skipSpace_cons (by decide)] at hafter
    rw [List.append_assoc]
    exact readMembers_last hk hread hafter
  | @Members.more key ks d cs ms tail hk h hms, hn => by
    obtain ⟨k, rfl⟩ : ∃ k, n = k + 2 := ⟨n - 2, by omega⟩
    rw [List.length_append, List.length_append, List.length_cons] at hn
    have hends : Ends (',' :: (tail ++ objectClose :: rest)) := ends_cons (by decide)
    obtain ⟨after, hread, hafter⟩ := h.readValue_eq k (by omega) hends
    have hmore : readMembers (k + 1) (skipSpace (tail ++ objectClose :: rest)) = .ok (ms, rest) :=
      hms.readMembers_eq rest (by omega)
    rw [skipSpace_cons (by decide)] at hafter
    rw [List.append_assoc, List.append_assoc]
    exact readMembers_more hk hread hafter hmore

end

/-- A text of the grammar does not start with the mark of a byte order. -/
theorem Element.ne_mark {d : Document} (h : Element d cs) :
    ∀ c, cs.head? = some c → c.toNat ≠ 0xfeff := by
  have htable : ∀ c ∈ blanks, c.toNat ≠ 0xfeff := by simp [blanks]
  intro c hc
  cases h with
  | @padded _ b v b' hb hv hb' =>
    cases b with
    | nil =>
      obtain ⟨e, tail, rfl, he⟩ := hv.exists_head
      obtain rfl : e = c := Option.some.inj hc
      exact he.ne_mark
    | cons e b =>
      obtain rfl : e = c := Option.some.inj hc
      exact htable e (hb e List.mem_cons_self)

theorem readDocument_of_readValue {d : Document}
    (hmark : ∀ c, cs.head? = some c → c.toNat ≠ 0xfeff)
    (h : readValue (2 * cs.length + 2) (skipSpace cs) = .ok (d, rest))
    (hrest : skipSpace rest = []) : readDocument cs = .ok d := by
  have hbody : readDocument.body cs = .ok d := by
    simp only [readDocument.body, h, hrest, bind, Except.bind]
    rfl
  cases cs with
  | nil => exact hbody
  | cons c cs => rw [readDocument, if_neg (hmark c rfl), hbody]

/-- **Every text of the grammar is read as the document that it stands for.** -/
theorem Element.ofText_eq {d : Document} {text : String} (h : Element d text.toList) :
    ofText text = .ok d := by
  obtain ⟨after, hread, hafter⟩ := h.readValue_eq (2 * text.toList.length + 1) (by omega) ends_nil
  rw [List.append_nil] at hread
  rw [ofText, readDocument_of_readValue h.ne_mark hread hafter]
  rfl

end Json

end MirRange
