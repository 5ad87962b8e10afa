import MirRange.Proofs.JsonGrammar
import MirRange.Proofs.RoundTrip

/-!
# The text of a crate

A crate is written as JSON text through its document.  Whatever the layout, the text is one of the
grammar and stands for the document, so that it is read back; and it is ASCII, whatever characters
the names in the crate have.

Floats are left aside: no part of a crate is written as one.

* `Json.Ascii`: nothing but ASCII characters; `Document.ascii_write`: what any document is written
  as.
* `Json.codeUnit_hex`, `Json.spelling_escapeChar`, `Json.number_ofInt`: how units, characters and
  integers are written.
* `Document.Plain`: documents without floats and repeated keys; `Document.Plain.value_write`: such a
  document is written as a text of the grammar.
* `Crate.plain_toDocument`: the documents of crates are plain.
* `Crate.text_faithful`: what follows for crates.
-/

namespace MirRange

namespace Json

/-! ### Characters -/

/-- A code in hexadecimal is that of its quotient by 16 with one more digit. -/
theorem hex_succ (w n : Nat) :
    Text.hex (w + 2) n = Text.hex (w + 1) (n / 16) ++ [Nat.digitChar (n % 16)] := by
  by_cases hn : n < 16
  · have hquot : n / 16 = 0 := by omega
    have hrem : n % 16 = n := by omega
    rw [hquot, hrem, Text.hex, Text.hex, Nat.toDigits_of_lt_base hn]
    show List.replicate (w + 1) '0' ++ _ = List.replicate w '0' ++ ['0'] ++ _
    rw [List.replicate_succ']
  · have hdigits : Nat.toDigits 16 n = Nat.toDigits 16 (n / 16) ++ [Nat.digitChar (n % 16)] :=
      Nat.toDigits_of_base_le (by omega) (by omega)
    have hpad : w + 2 - ((Nat.toDigits 16 (n / 16)).length + 1) =
        w + 1 - (Nat.toDigits 16 (n / 16)).length := by omega
    simp only [Text.hex, hdigits, List.length_append, List.length_singleton, hpad,
      List.append_assoc]

theorem hexDigit_digitChar {n : Nat} (h : n < 16) : HexDigit n (Nat.digitChar n) := by
  have htable : ∀ n < 16, smallHex[n]? = some (Nat.digitChar n) := by decide
  exact .inl (htable n h)

/-- **A code unit is written in four hexadecimal digits.** -/
theorem codeUnit_hex {n : Nat} (h : n < 0x10000) : CodeUnit n (Text.hex 4 n) := by
  have hone : Text.hex 1 (n / 16 / 16 / 16) = [Nat.digitChar (n / 16 / 16 / 16)] := by
    rw [Text.hex, Nat.toDigits_of_lt_base (by omega)]
    rfl
  have hvalue :
      ((n / 16 / 16 / 16 * 16 + n / 16 / 16 % 16) * 16 + n / 16 % 16) * 16 + n % 16 = n := by omega
  rw [hex_succ, hex_succ, hex_succ, hone]
  have hunit := CodeUnit.digits (hexDigit_digitChar (n := n / 16 / 16 / 16) (by omega))
    (hexDigit_digitChar (n := n / 16 / 16 % 16) (by omega))
    (hexDigit_digitChar (n := n / 16 % 16) (by omega))
    (hexDigit_digitChar (n := n % 16) (by omega))
  rw [hvalue] at hunit
  exact hunit

theorem escaped_unit {c : Char} (h : c.toNat < 0x10000) :
    Escaped c (Document.escapeUnit c.toNat) :=
  .unit (codeUnit_hex h)

theorem escaped_pair {c : Char} (h : 0x10000 ≤ c.toNat) :
    Escaped c (Document.escapeUnit (0xd800 + (c.toNat - 0x10000) / 0x400) ++
      Document.escapeUnit (0xdc00 + (c.toNat - 0x10000) % 0x400)) := by
  have hchar := toNat_char c
  have hhigh : CodeUnit (0xd800 + (c.toNat - 0x10000) / 0x400)
      (Text.hex 4 (0xd800 + (c.toNat - 0x10000) / 0x400)) := codeUnit_hex (by omega)
  have hlow : CodeUnit (0xdc00 + (c.toNat - 0x10000) % 0x400)
      (Text.hex 4 (0xdc00 + (c.toNat - 0x10000) % 0x400)) := codeUnit_hex (by omega)
  exact .pair hhigh hlow (by omega) (by omega) (by omega)

/-- A character beyond printable ASCII is written by its code units. -/
theorem escaped_escapeChar {c : Char} (h : 0x7f ≤ c.toNat) : Escaped c (Document.escapeChar c) := by
  have hne : ∀ e : Char, e.toNat < 0x7f → c ≠ e := by
    intro e he hce
    rw [hce] at h
    omega
  have hquote : ¬(c = '"' ∨ c = '\\') := not_or.2 ⟨hne _ (by decide), hne _ (by decide)⟩
  rw [Document.escapeChar, if_neg hquote, if_neg (hne _ (by decide)), if_neg (hne _ (by decide)),
    if_neg (hne _ (by decide)), if_neg (by omega), if_neg (by omega), if_neg (by omega)]
  split
  · rename_i hunit
    exact escaped_unit hunit
  · exact escaped_pair (by omega)

/-- **Every character is written in one of the ways in which it can stand in a text.** -/
theorem spelling_escapeChar (c : Char) : Spelling c (Document.escapeChar c) := by
  by_cases hbeyond : 0x7f ≤ c.toNat
  · exact .escaped (escaped_escapeChar hbeyond)
  unfold Document.escapeChar
  split
  · rename_i hquote
    rcases hquote with rfl | rfl <;> exact .short (by decide)
  split
  · rename_i hc
    exact .short (by rw [hc]; decide)
  split
  · rename_i hc
    exact .short (by rw [hc]; decide)
  split
  · rename_i hc
    exact .short (by rw [hc]; decide)
  split
  · rename_i hc
    have hfeed : c = Char.ofNat 0x0c := by rw [← hc, Char.ofNat_toNat]
    exact .short (by rw [hfeed]; decide)
  split
  · rename_i hc
    have hback : c = Char.ofNat 0x08 := by rw [← hc, Char.ofNat_toNat]
    exact .short (by rw [hback]; decide)
  rename_i hquote _ _ _ _ _
  split
  · rename_i hprintable
    exact .plain hprintable.1 (fun h => hquote (.inl h)) (fun h => hquote (.inr h))
  split
  · rename_i hunit
    exact .escaped (escaped_unit hunit)
  · omega

example : Document.escapeChar '😀' =
    ['\\', 'u', 'd', '8', '3', 'd', '\\', 'u', 'd', 'e', '0', '0'] := by decide

theorem quoted_writeText (s : String) : Quoted s (Document.writeText s) := by
  have hspellings : ∀ cs : List Char, Spellings cs (cs.flatMap Document.escapeChar) := by
    intro cs
    induction cs with
    | nil => exact .nil
    | cons c cs ih =>
      rw [List.flatMap_cons]
      exact .cons (spelling_escapeChar c) ih
  exact .quotes (hspellings s.toList)

/-! ### Integers -/

/-- Decimal digits start with a zero only for zero itself. -/
theorem toDigits_leading (n : Nat) (h : (Nat.toDigits 10 n).head? = some '0') :
    Nat.toDigits 10 n = ['0'] := by
  induction n using Nat.strongRecOn with
  | _ n ih =>
    by_cases hn : n < 10
    · rw [Nat.toDigits_of_lt_base hn] at h ⊢
      rw [Option.some.inj h]
    · exfalso
      rw [Nat.toDigits_of_base_le (by omega) (by omega),
        List.head?_append_of_ne_nil _ Nat.toDigits_ne_nil] at h
      have hzero := ih (n / 10) (by omega) h
      have hvalue : Nat.ofDigitChars 10 (Nat.toDigits 10 (n / 10)) 0 = n / 10 :=
        Nat.ofDigitChars_ten_toDigits
      rw [hzero] at hvalue
      have hquot : n / 10 = 0 := hvalue.symm
      omega

theorem whole_toDigits (n : Nat) : Whole (Nat.toDigits 10 n) where
  ne_nil := Nat.toDigits_ne_nil
  isDigit _ hc := Nat.isDigit_of_mem_toDigits (by decide) (by decide) hc
  leading := toDigits_leading n

theorem magnitude_toDigits (negative : Bool) (n : Nat) :
    Magnitude negative (.int (signed negative n)) (Nat.toDigits 10 n) := by
  have h : Magnitude negative
      (.int (signed negative (Nat.ofDigitChars 10 (Nat.toDigits 10 n) 0))) (Nat.toDigits 10 n) :=
    .int (whole_toDigits n)
  rw [Nat.ofDigitChars_ten_toDigits] at h
  exact h

/-- **An integer is written as a number that stands for it.** -/
theorem number_ofInt (n : Int) : Number (.int n) (Numeral.ofInt n) := by
  cases n with
  | ofNat n => exact .plain (magnitude_toDigits false n)
  | negSucc n => exact .minus (magnitude_toDigits true (n + 1))

/-! ### ASCII -/

/-- Nothing but ASCII characters. -/
def Ascii (cs : List Char) : Prop :=
  ∀ c ∈ cs, c.toNat < 0x80

@[simp] theorem ascii_nil : Ascii [] :=
  List.forall_mem_nil _

@[simp] theorem ascii_cons {c : Char} {cs : List Char} :
    Ascii (c :: cs) ↔ c.toNat < 0x80 ∧ Ascii cs :=
  List.forall_mem_cons

@[simp] theorem ascii_append {cs cs' : List Char} : Ascii (cs ++ cs') ↔ Ascii cs ∧ Ascii cs' :=
  List.forall_mem_append

theorem ascii_replicate (n : Nat) {c : Char} (h : c.toNat < 0x80) : Ascii (List.replicate n c) := by
  intro e he
  rw [List.eq_of_mem_replicate he]
  exact h

theorem CodeUnit.ascii {n : Nat} {us : List Char} (h : CodeUnit n us) : Ascii us := by
  have htable : ∀ c ∈ smallHex ++ capitalHex, c.toNat < 0x80 := by simp [smallHex, capitalHex]
  have hdigit : ∀ {k : Nat} {c : Char}, HexDigit k c → c.toNat < 0x80 := by
    intro k c hc
    refine htable c (List.mem_append.2 ?_)
    rcases hc with hc | hc
    · exact .inl (List.mem_of_getElem? hc)
    · exact .inr (List.mem_of_getElem? hc)
  cases h with
  | digits ha hb hc hd => simp [hdigit ha, hdigit hb, hdigit hc, hdigit hd]

theorem Escaped.ascii {c : Char} {cs : List Char} (h : Escaped c cs) : Ascii cs := by
  cases h with
  | unit hus => simp [hus.ascii]
  | pair hus hvs _ _ _ => simp [hus.ascii, hvs.ascii]

/-- An ASCII character is spelled in ASCII. -/
theorem Spelling.ascii {c : Char} {cs : List Char} (h : Spelling c cs) (hc : c.toNat < 0x80) :
    Ascii cs := by
  have htable : ∀ p ∈ shortForms, p.1.toNat < 0x80 := by decide
  cases h with
  | plain => simp [hc]
  | short hmem => simp [htable _ hmem]
  | escaped h => exact h.ascii

theorem ascii_escapeChar (c : Char) : Ascii (Document.escapeChar c) := by
  by_cases hbeyond : 0x7f ≤ c.toNat
  · exact (escaped_escapeChar hbeyond).ascii
  · exact (spelling_escapeChar c).ascii (by omega)

theorem ascii_writeText (s : String) : Ascii (Document.writeText s) := by
  have hchars : Ascii (s.toList.flatMap Document.escapeChar) := by
    intro e he
    obtain ⟨c, -, hc⟩ := List.mem_flatMap.1 he
    exact ascii_escapeChar c e hc
  simp [Document.writeText, hchars]

theorem ascii_ofNat (n : Nat) : Ascii (Numeral.ofNat n) := by
  intro c hc
  have hdigit := Nat.isDigit_of_mem_toDigits (by decide) (by decide) hc
  simp only [Char.isDigit, Bool.and_eq_true, decide_eq_true_eq] at hdigit
  have hle : c.toNat ≤ 57 := hdigit.2
  omega

theorem ascii_ofInt (n : Int) : Ascii (Numeral.ofInt n) := by
  cases n with
  | ofNat n => exact ascii_ofNat n
  | negSucc n => exact ascii_cons.2 ⟨by decide, ascii_ofNat (n + 1)⟩

theorem ascii_exponentText (e : Int) : Ascii (Numeral.exponentText e) := by
  have hsign : (if e < 0 then '-' else '+').toNat < 0x80 := by split <;> decide
  rw [Numeral.exponentText, Numeral.padLeft, ascii_cons, ascii_append]
  exact ⟨hsign, ascii_replicate _ (by decide), ascii_ofNat _⟩

theorem ascii_ofDecimal (d : Decimal) : Ascii (Numeral.ofDecimal d) := by
  have hdigits := ascii_ofNat d.digits
  unfold Numeral.ofDecimal
  generalize Numeral.ofNat d.digits = digits at hdigits
  have htake (n : Nat) : Ascii (digits.take n) := fun c hc => hdigits c (List.mem_of_mem_take hc)
  have hdrop (n : Nat) : Ascii (digits.drop n) := fun c hc => hdigits c (List.mem_of_mem_drop hc)
  simp only
  split
  · rw [ascii_append, ascii_cons]
    refine ⟨?_, by decide, ascii_exponentText _⟩
    split
    · simp only [ascii_cons] at hdigits ⊢
      exact ⟨hdigits.1, by decide, hdigits.2⟩
    · exact hdigits
  split
  · simp [ascii_replicate, hdigits]
  split
  · simp [ascii_replicate, hdigits]
  · simp [htake, hdrop]

theorem ascii_ofFloat (x : Float) : Ascii (Numeral.ofFloat jsonFloats x) := by
  have hnan : Ascii jsonFloats.nan.toList := by
    show Ascii ['N', 'a', 'N']
    simp
  have hinfinity : Ascii jsonFloats.infinity.toList := by
    show Ascii ['I', 'n', 'f', 'i', 'n', 'i', 't', 'y']
    simp
  have hsigned (negative : Bool) {cs : List Char} (h : Ascii cs) :
      Ascii (if negative then '-' :: cs else cs) := by
    cases negative <;> simp [h]
  unfold Numeral.ofFloat
  simp only
  split
  · exact hnan
  · exact hsigned _ hinfinity
  · refine hsigned _ ?_
    split
    · simp
    · exact ascii_ofDecimal _

/-! ### Layouts -/

/-- There need not be blanks around a value. -/
theorem Value.element {d : Document} {cs : List Char} (h : Value d cs) : Element d cs := by
  have hpadded : Element d ([] ++ (cs ++ [])) :=
    .padded (List.forall_mem_nil _) h (List.forall_mem_nil _)
  rw [List.nil_append, List.append_nil] at hpadded
  exact hpadded

theorem blank_newline (n : Nat) : Blank ('\n' :: List.replicate n ' ') := by
  intro c hc
  rcases List.mem_cons.1 hc with rfl | hc
  · decide
  · rw [List.eq_of_mem_replicate hc]
    decide

theorem Blank.ascii {b : List Char} (h : Blank b) : Ascii b := by
  have htable : ∀ c ∈ blanks, c.toNat < 0x80 := by simp [blanks]
  exact fun c hc => htable c (h c hc)

theorem blank_opening (layout : Document.Layout) (level : Nat) : Blank (layout.opening level) := by
  cases layout with
  | line => exact List.forall_mem_nil _
  | indented w => exact blank_newline _

theorem blank_closing (layout : Document.Layout) (level : Nat) : Blank (layout.closing level) := by
  cases layout with
  | line => exact List.forall_mem_nil _
  | indented w => exact blank_newline _

/-- Between two items there is a comma with blanks behind it. -/
theorem between_eq (layout : Document.Layout) (level : Nat) :
    ∃ b, Blank b ∧ layout.between level = ',' :: b := by
  cases layout with
  | line => exact ⟨[' '], List.forall_mem_singleton.2 (by decide), rfl⟩
  | indented w => exact ⟨_, blank_newline _, rfl⟩

end Json

namespace Document

open Json

/-! ### Documents -/

mutual

/-- **Documents are written in ASCII.** -/
theorem ascii_write (layout : Layout) (level : Nat) : ∀ d : Document, Ascii (write layout level d)
  | .null => by simp [write]
  | .bool true => by simp [write]
  | .bool false => by simp [write]
  | .int n => by
    rw [write]
    exact ascii_ofInt n
  | .float x => by
    rw [write]
    exact ascii_ofFloat x
  | .text s => by
    rw [write]
    exact ascii_writeText s
  | .list [] => by simp [write]
  | .list (d :: ds) => by
    simp [write, (blank_opening layout level).ascii, ascii_write layout (level + 1) d,
      ascii_writeItems layout level ds, (blank_closing layout level).ascii]
  | .object [] => by simp [write, objectOpen, objectClose]
  | .object ((k, d) :: ms) => by
    simp [write, objectOpen, objectClose, (blank_opening layout level).ascii, ascii_writeText k,
      ascii_write layout (level + 1) d, ascii_writeMembers layout level ms,
      (blank_closing layout level).ascii]

theorem ascii_writeItems (layout : Layout) (level : Nat) :
    ∀ ds : List Document, Ascii (writeItems layout level ds)
  | [] => by simp [writeItems]
  | d :: ds => by
    obtain ⟨b, hb, hbetween⟩ := between_eq layout level
    simp [writeItems, hbetween, hb.ascii, ascii_write layout (level + 1) d,
      ascii_writeItems layout level ds]

theorem ascii_writeMembers (layout : Layout) (level : Nat) :
    ∀ ms : List (String × Document), Ascii (writeMembers layout level ms)
  | [] => by simp [writeMembers]
  | (k, d) :: ms => by
    obtain ⟨b, hb, hbetween⟩ := between_eq layout level
    simp [writeMembers, hbetween, hb.ascii, ascii_writeText k, ascii_write layout (level + 1) d,
      ascii_writeMembers layout level ms]

end

/-- Documents without floats in which no object has a key twice. -/
inductive Plain : Document → Prop where
  | null : Plain .null
  | bool (b : Bool) : Plain (.bool b)
  | int (n : Int) : Plain (.int n)
  | text (s : String) : Plain (.text s)
  | list {ds : List Document} (h : ∀ d ∈ ds, Plain d) : Plain (.list ds)
  | object {ms : MirRange.Members} (hkeys : (ms.map Prod.fst).Nodup) (h : ∀ m ∈ ms, Plain m.2) :
      Plain (.object ms)

theorem put_of_not_mem {ms : MirRange.Members} {k : String} (h : k ∉ ms.map Prod.fst)
    (d : Document) : ms.put k d = ms ++ [(k, d)] := by
  induction ms with
  | nil => rfl
  | cons m ms ih =>
    rw [List.map_cons, List.mem_cons, not_or] at h
    rw [Members.put, if_neg (Ne.symm h.1), ih h.2, List.cons_append]

/-- Members with distinct keys are kept as they are read. -/
theorem gather_of_nodup {ms : MirRange.Members} (h : (ms.map Prod.fst).Nodup) : gather ms = ms := by
  have hrun : ∀ (ms acc : MirRange.Members), ((acc ++ ms).map Prod.fst).Nodup →
      ms.foldl (fun acc m => Members.put acc m.1 m.2) acc = acc ++ ms := by
    intro ms
    induction ms with
    | nil =>
      intro acc _
      exact (List.append_nil acc).symm
    | cons m ms ih =>
      intro acc hnodup
      have hnew : m.1 ∉ acc.map Prod.fst := by
        rw [List.map_append, List.map_cons, List.nodup_append] at hnodup
        exact fun hmem => hnodup.2.2 _ hmem _ List.mem_cons_self rfl
      rw [List.append_cons] at hnodup ⊢
      rw [List.foldl_cons, put_of_not_mem hnew]
      exact ih _ hnodup
  exact hrun ms [] h

/-- The items of a list, each written as a value, are written as items. -/
theorem items_write {layout : Layout} {level : Nat} {d : Document} {ds : List Document}
    (h : ∀ e ∈ d :: ds, Json.Value e (write layout (level + 1) e)) {b : List Char} (hb : Blank b) :
    Items (d :: ds) (b ++ (write layout (level + 1) d ++
      (writeItems layout level ds ++ layout.closing level))) := by
  induction ds generalizing d b with
  | nil =>
    have hd := h d List.mem_cons_self
    exact .last (.padded hb hd (blank_closing layout level))
  | cons e ds ih =>
    have hd := h d List.mem_cons_self
    obtain ⟨gap, hgap, hbetween⟩ := between_eq layout level
    have hrest := ih (fun x hx => h x (List.mem_cons_of_mem _ hx)) hgap
    have hitems := Items.more (.padded hb hd (List.forall_mem_nil _)) hrest
    simpa [writeItems, hbetween] using hitems

theorem key_writeText {b : List Char} (hb : Blank b) (k : String) :
    Key k (b ++ (writeText k ++ ([] ++ [':']))) :=
  .colon hb (quoted_writeText k) (List.forall_mem_nil _)

/-- The members of an object, each written as a value, are written as members. -/
theorem members_write {layout : Layout} {level : Nat} {m : String × Document}
    {ms : MirRange.Members} (h : ∀ e ∈ m :: ms, Json.Value e.2 (write layout (level + 1) e.2))
    {b : List Char} (hb : Blank b) :
    Json.Members (m :: ms)
      (b ++ (writeText m.1 ++ ':' :: ' ' :: (write layout (level + 1) m.2 ++
        (writeMembers layout level ms ++ layout.closing level)))) := by
  have hspace : Blank [' '] := List.forall_mem_singleton.2 (by decide)
  induction ms generalizing m b with
  | nil =>
    have hd := h m List.mem_cons_self
    have hmembers := Json.Members.last (key_writeText hb m.1)
      (.padded hspace hd (blank_closing layout level))
    simpa [writeMembers] using hmembers
  | cons e ms ih =>
    have hd := h m List.mem_cons_self
    obtain ⟨gap, hgap, hbetween⟩ := between_eq layout level
    have hrest := ih (fun x hx => h x (List.mem_cons_of_mem _ hx)) hgap
    have hmembers := Json.Members.more (key_writeText hb m.1)
      (.padded hspace hd (List.forall_mem_nil _)) hrest
    simpa [writeMembers, hbetween] using hmembers

/-- **A plain document is written as a text that stands for it**, in every layout. -/
theorem Plain.value_write {d : Document} (h : Plain d) (layout : Layout) (level : Nat) :
    Json.Value d (write layout level d) := by
  induction h generalizing level with
  | null =>
    rw [write]
    exact .nullWord
  | bool b =>
    cases b
    · rw [write]
      exact .falseWord
    · rw [write]
      exact .trueWord
  | int n =>
    rw [write]
    exact .number (number_ofInt n)
  | text s =>
    rw [write]
    exact .text (quoted_writeText s)
  | @list ds _ ih =>
    cases ds with
    | nil =>
      rw [write]
      exact .emptyList (List.forall_mem_nil _)
    | cons d ds =>
      have hitems := items_write (fun e he => ih e he (level + 1)) (blank_opening layout level)
      simpa [write] using Json.Value.list hitems
  | @object ms hkeys _ ih =>
    cases ms with
    | nil =>
      rw [write]
      exact .emptyObject (List.forall_mem_nil _)
    | cons m ms =>
      have hmembers := members_write (fun e he => ih e he (level + 1)) (blank_opening layout level)
      have hvalue := Json.Value.object hmembers
      rw [gather_of_nodup hkeys] at hvalue
      simpa [write] using hvalue

@[simp] theorem plain_null : Plain .null :=
  .null

@[simp] theorem plain_bool (b : Bool) : Plain (.bool b) :=
  .bool b

@[simp] theorem plain_int (n : Int) : Plain (.int n) :=
  .int n

@[simp] theorem plain_text (s : String) : Plain (.text s) :=
  .text s

@[simp] theorem plain_list {ds : List Document} : Plain (.list ds) ↔ ∀ d ∈ ds, Plain d := by
  constructor
  · intro h
    cases h with
    | list h => exact h
  · exact .list

@[simp] theorem plain_object {ms : MirRange.Members} :
    Plain (.object ms) ↔ (ms.map Prod.fst).Nodup ∧ ∀ m ∈ ms, Plain m.2 := by
  constructor
  · intro h
    cases h with
    | object hkeys h => exact ⟨hkeys, h⟩
  · exact fun h => .object h.1 h.2

end Document

/-! ### Crates -/

mutual

theorem Ty.plain_toDocument : ∀ t : Ty, t.toDocument.Plain
  | .bool => by simp [toDocument]
  | .int w => by simp [toDocument]
  | .uint w => by simp [toDocument]
  | .float w => by simp [toDocument]
  | .tuple ts => by simpa [toDocument] using Ty.plain_toDocuments ts
  | .ref t isMut => by simp [toDocument, Ty.plain_toDocument t]
  | .adt name => by simp [toDocument]
  | .str => by simp [toDocument]

theorem Ty.plain_toDocuments : ∀ ts : List Ty, ∀ d ∈ toDocuments ts, d.Plain
  | [] => List.forall_mem_nil _
  | t :: ts => List.forall_mem_cons.2 ⟨Ty.plain_toDocument t, Ty.plain_toDocuments ts⟩

end

theorem Projection.plain_toDocument (p : Projection) : p.toDocument.Plain := by
  cases p <;> simp [toDocument]

theorem Place.plain_toDocument (p : Place) : p.toDocument.Plain := by
  unfold toDocument
  split <;> simp [Projection.plain_toDocument]

theorem Const.plain_toDocument (c : Const) : c.toDocument.Plain := by
  have hbyte : ∀ byte, (byteDocument byte).Plain := by
    intro byte
    cases byte <;> simp [byteDocument]
  simp [toDocument, Ty.plain_toDocument, hbyte]

theorem Operand.plain_toDocument (x : Operand) : x.toDocument.Plain := by
  cases x <;> simp [toDocument, Place.plain_toDocument, Const.plain_toDocument]

theorem Rvalue.plain_toDocument (rv : Rvalue) : rv.toDocument.Plain := by
  cases rv <;> simp [toDocument, Operand.plain_toDocument, Place.plain_toDocument,
    Ty.plain_toDocument]

theorem Statement.plain_toDocument (stmt : Statement) : stmt.toDocument.Plain := by
  cases stmt <;> simp [toDocument, Place.plain_toDocument, Rvalue.plain_toDocument]

theorem LocalDecl.plain_toDocument (decl : LocalDecl) : decl.toDocument.Plain := by
  unfold toDocument
  split <;> simp [Ty.plain_toDocument]

theorem Body.plain_toDocument (b : Body) : b.toDocument.Plain := by
  simp [toDocument, blockDocument, LocalDecl.plain_toDocument, Statement.plain_toDocument]

/-- The documents of crates are plain. -/
theorem Crate.plain_toDocument (c : Crate) : c.toDocument.Plain := by
  simp [toDocument, Function.toDocument, Body.plain_toDocument]

namespace Crate

/-- The text of a crate is standard JSON for its document. -/
theorem element_toText (c : Crate) (indent : Option Int) :
    Json.Element c.toDocument (c.toText indent).toList := by
  have hvalue := c.plain_toDocument.value_write (.ofIndent indent) 0
  rw [toText, Document.toText, String.toList_ofList]
  exact hvalue.element

theorem ofText_toText {c : Crate} (h : Positive c.widths) (indent : Option Int) :
    ofText (c.toText indent) = .ok c := by
  rw [ofText, (c.element_toText indent).ofText_eq]
  exact lossless.read_write h

/-- **The text of a crate loses nothing.**  Whatever the indent,

* the text is standard JSON for the document of the crate;
* it is ASCII, and a character that is not is written by its UTF-16 code units;
* every text that is standard JSON for a document is read as this document, and so is the text of
  the crate;
* the crate that is read from the text is the one that was written, if no number type in it has
  width 0. -/
theorem text_faithful (c : Crate) (h : Positive c.widths) (indent : Option Int) :
    Json.Element c.toDocument (c.toText indent).toList ∧
      (Json.Ascii (c.toText indent).toList ∧
        ∀ ch : Char, 0x80 ≤ ch.toNat → Json.Escaped ch (Document.escapeChar ch)) ∧
      (∀ d text, Json.Element d text.toList → Document.ofText text = .ok d) ∧
      Document.ofText (c.toText indent) = .ok c.toDocument ∧
      ofText (c.toText indent) = .ok c := by
  have helement := c.element_toText indent
  refine ⟨helement, ⟨?_, ?_⟩, ?_, helement.ofText_eq, ofText_toText h indent⟩
  · rw [toText, Document.toText, String.toList_ofList]
    exact Document.ascii_write _ 0 _
  · intro ch hch
    exact Json.escaped_escapeChar (by omega)
  · intro d text hd
    exact hd.ofText_eq

/-- A crate with quotes, backslashes, controls and characters beyond ASCII in its names, and with
integers of either sign. -/
def anyNames : Crate where
  name := "a \"b\" \\ \n\t\x01\x7f"
  functions := [
    { name := "größe😀"
      body := {
        blocks := [
          [.assign ⟨-1, [.field (-20)]⟩ (.use (.const ⟨.int 16, [some (-7), none], .allocated⟩))]]
        locals := [⟨.adt "𝔖/\u0000", true⟩]
        argCount := -100000000000000000000 } }]

/-- On one line, and with an indent below zero. -/
theorem text_faithful_anyNames :
    Positive anyNames.widths ∧ ofText (anyNames.toText none) = .ok anyNames ∧
      ofText (anyNames.toText (some (-3))) = .ok anyNames := by
  have hpositive : Positive anyNames.widths := by decide
  exact ⟨hpositive, (text_faithful anyNames hpositive none).2.2.2.2,
    (text_faithful anyNames hpositive (some (-3))).2.2.2.2⟩

end Crate

end MirRange
