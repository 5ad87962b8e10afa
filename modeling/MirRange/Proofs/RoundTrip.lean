import MirRange.Crate
import MirRange.Proofs.Path

/-!
# Reading back what was written

The document form of a crate leaves out what is a default and is read back by trying keys in a fixed
order, part by part: types, places, operands, rvalues, statements, declarations.  Reading gives back
what was written, as long as no number type in it has width 0; and no crate that is read has one.

* `Document.requireObject_eq_ok`: when the object under a key is read.
* `Ty.widths`, …, `Crate.widths`: the widths of the number types that occur; `Positive`: none is 0.
* `Lossless`: a way of writing and one of reading that belong together, also under a key
  (`Lossless.bind_requireObject`) and for lists (`Lossless.readAll_map`).
* `Ty.lossless`, …, `Crate.lossless`: the document forms, part by part.
* `Crate.document_faithful`: what follows for crates.
-/

namespace MirRange

variable {α β : Type}

/-! ### Reading keys -/

namespace Document

variable {d v : Document} {key : String}

theorem require_eq_ok : d.require key = .ok v ↔ d.get? key = some v := by
  unfold require
  cases d.get? key <;> simp

theorem requireObject_eq_ok :
    d.requireObject key = .ok v ↔ d.get? key = some v ∧ ∃ ms, v = .object ms := by
  rw [requireObject, bind_eq_ok]
  constructor
  · rintro ⟨v, hv, h⟩
    cases v <;> cases h
    exact ⟨require_eq_ok.1 hv, _, rfl⟩
  · rintro ⟨h, ms, rfl⟩
    exact ⟨_, require_eq_ok.2 h, rfl⟩

end Document

/-! ### Widths -/

/-- No number of a list is 0. -/
def Positive (ws : List Nat) : Prop :=
  ∀ w ∈ ws, 0 < w

instance (ws : List Nat) : Decidable (Positive ws) :=
  inferInstanceAs (Decidable (∀ w ∈ ws, 0 < w))

@[simp] theorem positive_nil : Positive [] :=
  List.forall_mem_nil _

@[simp] theorem positive_singleton {w : Nat} : Positive [w] ↔ 0 < w :=
  List.forall_mem_singleton

@[simp] theorem positive_append {ws ws' : List Nat} :
    Positive (ws ++ ws') ↔ Positive ws ∧ Positive ws' :=
  List.forall_mem_append

@[simp] theorem positive_flatMap {f : α → List Nat} {as : List α} :
    Positive (as.flatMap f) ↔ ∀ a ∈ as, Positive (f a) := by
  simp only [Positive, List.mem_flatMap]
  constructor
  · intro h a ha w hw
    exact h w ⟨a, ha, hw⟩
  · rintro h w ⟨a, ha, hw⟩
    exact h a ha w hw

mutual

/-- The widths of the number types in a type. -/
def Ty.widths : Ty → List Nat
  | .int bits => [bits]
  | .uint bits => [bits]
  | .float bits => [bits]
  | .tuple fields => Ty.widthsAll fields
  | .ref pointee _ => Ty.widths pointee
  | .bool => []
  | .adt _ => []
  | .str => []

/-- The widths of the number types in the types of a list. -/
def Ty.widthsAll : List Ty → List Nat
  | [] => []
  | t :: ts => Ty.widths t ++ Ty.widthsAll ts

end

/-- The widths of the number types in an operand. -/
def Operand.widths : Operand → List Nat
  | .copy _ => []
  | .move _ => []
  | .const c => c.ty.widths

/-- The widths of the number types in an rvalue. -/
def Rvalue.widths : Rvalue → List Nat
  | .use x => x.widths
  | .binary _ l r => l.widths ++ r.widths
  | .checked _ l r => l.widths ++ r.widths
  | .unary _ x => x.widths
  | .ref _ _ => []
  | .aggregate items => items.flatMap Operand.widths
  | .cast x ty => x.widths ++ ty.widths

/-- The widths of the number types in a statement. -/
def Statement.widths : Statement → List Nat
  | .assign _ rv => rv.widths
  | _ => []

/-- The widths of the number types in a body. -/
def Body.widths (b : Body) : List Nat :=
  (b.blocks.flatMap fun block => block.flatMap Statement.widths) ++
    b.locals.flatMap fun decl => decl.ty.widths

/-- The widths of the number types in a crate. -/
def Crate.widths (c : Crate) : List Nat :=
  c.functions.flatMap fun f => f.body.widths

/-! ### Lists -/

theorem readAll_eq_ok {read : Document → Except Malformed α} {ds : List Document} {as : List α} :
    readAll read ds = .ok as ↔ List.Forall₂ (fun d a => read d = .ok a) ds as := by
  induction ds generalizing as with
  | nil => simp [readAll, eq_comm]
  | cons d ds ih =>
    rw [readAll, bind_eq_ok]
    constructor
    · rintro ⟨a, ha, h⟩
      obtain ⟨rest, hrest, h⟩ := bind_eq_ok.1 h
      cases h
      exact .cons ha (ih.1 hrest)
    · rintro (_ | ⟨ha, hrest⟩)
      exact ⟨_, ha, bind_eq_ok.2 ⟨_, ih.2 hrest, rfl⟩⟩

theorem readAll_map {read : Document → Except Malformed α} {write : α → Document} {as : List α}
    (h : ∀ a ∈ as, read (write a) = .ok a) : readAll read (as.map write) = .ok as := by
  rw [readAll_eq_ok, List.forall₂_map_left_iff, List.forall₂_same]
  exact h

/-- A way of writing and one of reading belong together: objects are written, what has positive
widths is read back as it was, and nothing else is read. -/
structure Lossless (write : α → Document) (read : Document → Except Malformed α)
    (widths : α → List Nat) : Prop where
  object : ∀ a, ∃ ms, write a = .object ms
  read_write : ∀ {a}, Positive (widths a) → read (write a) = .ok a
  positive : ∀ {d a}, read d = .ok a → Positive (widths a)

namespace Lossless

variable {write : α → Document} {read : Document → Except Malformed α} {widths : α → List Nat}

/-- What was read is read again from what it is written as. -/
theorem reread (h : Lossless write read widths) {d : Document} {a : α} (hd : read d = .ok a) :
    read (write a) = .ok a :=
  h.read_write (h.positive hd)

/-- Different values are written differently. -/
theorem injective (h : Lossless write read widths) {a b : α} (ha : Positive (widths a))
    (hb : Positive (widths b)) (hab : write a = write b) : a = b := by
  have hread : read (write a) = .ok b := by
    rw [hab]
    exact h.read_write hb
  rw [h.read_write ha] at hread
  exact Except.ok.inj hread

/-- What is written under a key is read back from there. -/
theorem bind_requireObject (h : Lossless write read widths) {d : Document} {key : String} {a : α}
    (hget : d.get? key = some (write a)) (ha : Positive (widths a)) (f : α → Except Malformed β) :
    (do f (← read (← d.requireObject key))) = f a := by
  rw [Document.requireObject_eq_ok.2 ⟨hget, h.object a⟩]
  show (read (write a) >>= f) = f a
  rw [h.read_write ha]
  rfl

/-- What is read under a key has positive widths. -/
theorem positive_bind_requireObject (h : Lossless write read widths) {d : Document} {key : String}
    {f : α → Except Malformed β} {b : β} (hd : (do f (← read (← d.requireObject key))) = .ok b) :
    ∃ a, Positive (widths a) ∧ f a = .ok b := by
  obtain ⟨d', -, hd⟩ := bind_eq_ok.1 hd
  obtain ⟨a, ha, hd⟩ := bind_eq_ok.1 hd
  exact ⟨a, h.positive ha, hd⟩

/-- Lists are read back item by item. -/
theorem readAll_map (h : Lossless write read widths) {as : List α}
    (has : Positive (as.flatMap widths)) : readAll read (as.map write) = .ok as :=
  MirRange.readAll_map fun a ha => h.read_write (positive_flatMap.1 has a ha)

theorem positive_readAll (h : Lossless write read widths) {ds : List Document} {as : List α}
    (hds : readAll read ds = .ok as) : Positive (as.flatMap widths) := by
  refine positive_flatMap.2 fun a ha => ?_
  obtain ⟨n, hn⟩ := List.getElem?_of_mem ha
  obtain ⟨d, -, hd⟩ := getElem?_of_forall₂ (readAll_eq_ok.1 hds).flip hn
  exact h.positive hd

end Lossless

/-! ### Types -/

namespace Ty

variable {d d' : Document} {ds : List Document} {t : Ty} {ts : List Ty} {w : Nat}

theorem readWidth_of_pos (hbits : d.get? "bits" = some (.int w)) (hw : 0 < w) :
    readWidth d = .ok w := by
  simp [readWidth, hbits, hw]

theorem pos_of_readWidth (h : readWidth d = .ok w) : 0 < w := by
  unfold readWidth at h
  split at h
  · cases h
    decide
  · cases h
    decide
  · split at h
    · cases h
      omega
    · cases h
  · split at h
    · cases h
      decide
    · cases h
  · cases h

theorem ofDocument_tuple (hkind : d.get? "kind" = some (.text "tuple"))
    (hfields : d.get? "fields" = some (.list ds)) :
    ofDocument d = (ofDocuments ds).map .tuple := by
  rw [ofDocument]
  simp only [hkind, String.reduceEq, reduceIte]
  split <;> simp_all

theorem ofDocument_ref (hkind : d.get? "kind" = some (.text "ref"))
    (hpointee : d.get? "pointee" = some d') :
    ofDocument d = (ofDocument d').map fun t => .ref t (d.flag "mutable") := by
  rw [ofDocument]
  simp only [hkind, String.reduceEq, reduceIte]
  split <;> simp_all

theorem ofDocuments_eq_readAll (ds : List Document) : ofDocuments ds = readAll ofDocument ds := by
  induction ds with
  | nil => rw [ofDocuments, readAll]
  | cons d ds ih => rw [ofDocuments, readAll, ih]

/-- The type of a given kind, read from the other keys. -/
def readKind (d : Document) (kind : String) : Except Malformed Ty :=
  if kind = "bool" then .ok .bool
  else if kind = "int" then (readWidth d).map .int
  else if kind = "uint" then (readWidth d).map .uint
  else if kind = "float" then (readWidth d).map .float
  else if kind = "tuple" then
    match d.get? "fields" with
    | none => .ok (.tuple [])
    | some (.list ds) => (readAll ofDocument ds).map .tuple
    | some fields => .error (.fields fields)
  else if kind = "ref" then
    match d.get? "pointee" with
    | none => .error .missingPointee
    | some pointee => (ofDocument pointee).map fun t => .ref t (d.flag "mutable")
  else if kind = "adt" then .ok (.adt (((d.get? "name").map Document.display).getD ""))
  else if kind = "str" then .ok .str
  else .error (.typeKind kind)

/-- One level of reading, without what its recursion needs. -/
theorem ofDocument_of_kind {kind : String} (hkind : d.get? "kind" = some (.text kind)) :
    ofDocument d = readKind d kind := by
  rw [ofDocument]
  simp only [hkind, readKind, ofDocuments_eq_readAll]
  repeat
    split
    · rfl
  split
  · split <;> simp_all
  split
  · split <;> simp_all
  rfl

theorem ofDocument_of_no_kind (hkind : ∀ kind, d.get? "kind" ≠ some (.text kind)) :
    ofDocument d = .error (.type d) := by
  rw [ofDocument]
  split
  · rename_i kind h
    exact absurd h (hkind kind)
  · rfl

mutual

theorem ofDocument_toDocument : ∀ t : Ty, Positive t.widths → ofDocument t.toDocument = .ok t
  | .bool, _ => by
    rw [ofDocument]
    rfl
  | .int w, h => by
    rw [ofDocument]
    exact map_eq_ok.2 ⟨w, readWidth_of_pos rfl (positive_singleton.1 h), rfl⟩
  | .uint w, h => by
    rw [ofDocument]
    exact map_eq_ok.2 ⟨w, readWidth_of_pos rfl (positive_singleton.1 h), rfl⟩
  | .float w, h => by
    rw [ofDocument]
    exact map_eq_ok.2 ⟨w, readWidth_of_pos rfl (positive_singleton.1 h), rfl⟩
  | .tuple ts, h => by
    have hread : ofDocument (toDocument (.tuple ts)) = (ofDocuments (toDocuments ts)).map .tuple :=
      ofDocument_tuple rfl rfl
    rw [hread, ofDocuments_toDocuments ts h]
    rfl
  | .ref t isMut, h => by
    have hread : ofDocument (toDocument (.ref t isMut)) =
        (ofDocument t.toDocument).map fun t => .ref t isMut := ofDocument_ref rfl rfl
    rw [hread, ofDocument_toDocument t h]
    rfl
  | .adt name, _ => by
    rw [ofDocument]
    rfl
  | .str, _ => by
    rw [ofDocument]
    rfl

theorem ofDocuments_toDocuments :
    ∀ ts : List Ty, Positive (widthsAll ts) → ofDocuments (toDocuments ts) = .ok ts
  | [], _ => by rw [toDocuments, ofDocuments]
  | t :: ts, h => by
    obtain ⟨ht, hts⟩ := positive_append.1 h
    rw [toDocuments, ofDocuments, ofDocument_toDocument t ht, ofDocuments_toDocuments ts hts]
    rfl

end

/-- What was read along with a type: its width, or its parts. -/
def PartsRead (d : Document) : Ty → Prop
  | .int w => readWidth d = .ok w
  | .uint w => readWidth d = .ok w
  | .float w => readWidth d = .ok w
  | .tuple ts => ∃ ds, ofDocuments ds = .ok ts
  | .ref t _ => ∃ d', ofDocument d' = .ok t
  | _ => True

theorem partsRead (h : ofDocument d = .ok t) : PartsRead d t := by
  revert h
  fun_cases ofDocument d <;> intro h
  case case1 | case10 | case11 =>
    cases h
    trivial
  case case2 | case3 | case4 =>
    obtain ⟨w, hw, rfl⟩ := map_eq_ok.1 h
    exact hw
  case case5 =>
    -- a tuple whose fields are left out has none
    cases h
    exact ⟨[], by rw [ofDocuments]⟩
  case case6 =>
    obtain ⟨ts, hts, rfl⟩ := map_eq_ok.1 h
    exact ⟨_, hts⟩
  case case9 =>
    obtain ⟨t', ht', rfl⟩ := map_eq_ok.1 h
    exact ⟨_, ht'⟩
  all_goals cases h

mutual

theorem positive_of_ofDocument :
    ∀ (t : Ty) {d : Document}, ofDocument d = .ok t → Positive t.widths
  | .bool, _, _ => positive_nil
  | .int _, _, h => positive_singleton.2 (pos_of_readWidth (partsRead h))
  | .uint _, _, h => positive_singleton.2 (pos_of_readWidth (partsRead h))
  | .float _, _, h => positive_singleton.2 (pos_of_readWidth (partsRead h))
  | .tuple ts, _, h => by
    obtain ⟨ds, hds⟩ := partsRead h
    exact positive_of_ofDocuments ts hds
  | .ref t _, _, h => by
    obtain ⟨d', hd'⟩ := partsRead h
    exact positive_of_ofDocument t hd'
  | .adt _, _, _ => positive_nil
  | .str, _, _ => positive_nil

theorem positive_of_ofDocuments :
    ∀ (ts : List Ty) {ds : List Document}, ofDocuments ds = .ok ts → Positive (widthsAll ts)
  | [], _, _ => positive_nil
  | t :: ts, [], h => by
    rw [ofDocuments] at h
    cases h
  | t :: ts, d :: ds, h => by
    rw [ofDocuments] at h
    obtain ⟨t', ht, h⟩ := bind_eq_ok.1 h
    obtain ⟨ts', hts, h⟩ := bind_eq_ok.1 h
    cases h
    exact positive_append.2 ⟨positive_of_ofDocument t ht, positive_of_ofDocuments ts hts⟩

end

theorem lossless : Lossless toDocument ofDocument widths where
  object := by
    intro t
    cases t <;> exact ⟨_, rfl⟩
  read_write := ofDocument_toDocument _
  positive := positive_of_ofDocument _

end Ty

/-! ### Places and operands -/

theorem Projection.ofDocument_toDocument (p : Projection) : ofDocument p.toDocument = .ok p := by
  cases p <;> rfl

theorem Place.ofDocument_toDocument (p : Place) : ofDocument p.toDocument = .ok p := by
  obtain ⟨base, path⟩ := p
  cases path with
  | nil => rfl
  | cons step path =>
    refine bind_eq_ok.2 ⟨base, rfl, bind_eq_ok.2 ⟨step :: path, ?_, rfl⟩⟩
    exact readAll_map fun p _ => p.ofDocument_toDocument

theorem Place.lossless : Lossless toDocument ofDocument fun _ : Place => [] where
  object _ := ⟨_, rfl⟩
  read_write _ := ofDocument_toDocument _
  positive _ := positive_nil

theorem Const.bytes?_map (bytes : List (Option Int)) :
    bytes? (bytes.map byteDocument) = some bytes := by
  induction bytes with
  | nil => rfl
  | cons byte bytes ih =>
    rw [List.map_cons, bytes?, ih]
    cases byte <;> rfl

theorem Const.lossless : Lossless toDocument ofDocument fun c : Const => c.ty.widths where
  object _ := ⟨_, rfl⟩
  read_write := by
    rintro ⟨ty, bytes, kind⟩ h
    have hkind : ConstKind.ofDocument (toDocument ⟨ty, bytes, kind⟩) = .ok kind := by
      cases kind <;> rfl
    have hbytes : readBytes (toDocument ⟨ty, bytes, kind⟩) = .ok bytes := by
      have hget : (toDocument ⟨ty, bytes, kind⟩).get? "bytes" =
          some (.list (bytes.map byteDocument)) := rfl
      simp only [readBytes, hget, bytes?_map]
    refine bind_eq_ok.2 ⟨kind, hkind, bind_eq_ok.2 ⟨bytes, hbytes, ?_⟩⟩
    exact Ty.lossless.bind_requireObject rfl h _
  positive := by
    intro d c h
    obtain ⟨kind, -, h⟩ := bind_eq_ok.1 h
    obtain ⟨bytes, -, h⟩ := bind_eq_ok.1 h
    obtain ⟨ty, hty, h⟩ := Ty.lossless.positive_bind_requireObject h
    cases h
    exact hty

theorem Operand.lossless : Lossless toDocument ofDocument widths where
  object x := by cases x <;> exact ⟨_, rfl⟩
  read_write := by
    intro x h
    cases x with
    | copy p => exact map_eq_ok.2 ⟨p, p.ofDocument_toDocument, rfl⟩
    | move p => exact map_eq_ok.2 ⟨p, p.ofDocument_toDocument, rfl⟩
    | const c => exact map_eq_ok.2 ⟨c, Const.lossless.read_write h, rfl⟩
  positive := by
    intro d x h
    unfold ofDocument at h
    split at h
    · obtain ⟨p, -, rfl⟩ := map_eq_ok.1 h
      exact positive_nil
    split at h
    · obtain ⟨p, -, rfl⟩ := map_eq_ok.1 h
      exact positive_nil
    split at h
    · obtain ⟨c, hc, rfl⟩ := map_eq_ok.1 h
      exact Const.lossless.positive hc
    · cases h
    · cases h

/-! ### Rvalues and statements -/

theorem BinOp.ofDocument_name (op : BinOp) : ofDocument (.text op.name) = .ok op := by
  cases op <;> rfl

theorem UnOp.ofDocument_name (op : UnOp) : ofDocument (.text op.name) = .ok op := by
  cases op <;> rfl

namespace Rvalue

variable {d : Document} {what : Listed} {op : BinOp} {l r : Operand}

theorem readBinary_of_positive (h : Positive (l.widths ++ r.widths)) :
    readBinary what (.list [.text op.name, l.toDocument, r.toDocument]) = .ok (op, l, r) := by
  obtain ⟨hl, hr⟩ := positive_append.1 h
  exact bind_eq_ok.2 ⟨op, op.ofDocument_name, bind_eq_ok.2 ⟨l, Operand.lossless.read_write hl,
    bind_eq_ok.2 ⟨r, Operand.lossless.read_write hr, rfl⟩⟩⟩

theorem positive_of_readBinary (h : readBinary what d = .ok (op, l, r)) :
    Positive (l.widths ++ r.widths) := by
  unfold readBinary at h
  split at h
  · obtain ⟨op', -, h⟩ := bind_eq_ok.1 h
    obtain ⟨l', hl, h⟩ := bind_eq_ok.1 h
    obtain ⟨r', hr, h⟩ := bind_eq_ok.1 h
    cases h
    exact positive_append.2 ⟨Operand.lossless.positive hl, Operand.lossless.positive hr⟩
  · cases h

theorem readUnary_of_positive {op : UnOp} {x : Operand} (h : Positive x.widths) :
    readUnary (.list [.text op.name, x.toDocument]) = .ok (op, x) :=
  bind_eq_ok.2 ⟨op, op.ofDocument_name, bind_eq_ok.2 ⟨x, Operand.lossless.read_write h, rfl⟩⟩

theorem positive_of_readUnary {op : UnOp} {x : Operand} (h : readUnary d = .ok (op, x)) :
    Positive x.widths := by
  unfold readUnary at h
  split at h
  · obtain ⟨op', -, h⟩ := bind_eq_ok.1 h
    obtain ⟨x', hx, h⟩ := bind_eq_ok.1 h
    cases h
    exact Operand.lossless.positive hx
  · cases h

theorem ofDocument_toDocument {rv : Rvalue} (h : Positive rv.widths) :
    ofDocument rv.toDocument = .ok rv := by
  cases rv with
  | use x => exact map_eq_ok.2 ⟨x, Operand.lossless.read_write h, rfl⟩
  | binary op l r => exact map_eq_ok.2 ⟨_, readBinary_of_positive h, rfl⟩
  | checked op l r => exact map_eq_ok.2 ⟨_, readBinary_of_positive h, rfl⟩
  | unary op x => exact map_eq_ok.2 ⟨_, readUnary_of_positive h, rfl⟩
  | ref p isMut => exact Place.lossless.bind_requireObject rfl positive_nil _
  | aggregate items => exact map_eq_ok.2 ⟨items, Operand.lossless.readAll_map h, rfl⟩
  | cast x ty =>
    obtain ⟨hx, hty⟩ := positive_append.1 h
    exact (Operand.lossless.bind_requireObject rfl hx _).trans
      (Ty.lossless.bind_requireObject rfl hty _)

theorem positive_of_ofDocument {rv : Rvalue} (h : ofDocument d = .ok rv) : Positive rv.widths := by
  unfold ofDocument at h
  -- the keys in the order in which they are tried
  split at h
  · obtain ⟨x, hx, rfl⟩ := map_eq_ok.1 h
    exact Operand.lossless.positive hx
  split at h
  · obtain ⟨x, hx, rfl⟩ := map_eq_ok.1 h
    exact positive_of_readBinary hx
  split at h
  · obtain ⟨x, hx, rfl⟩ := map_eq_ok.1 h
    exact positive_of_readBinary hx
  split at h
  · obtain ⟨x, hx, rfl⟩ := map_eq_ok.1 h
    exact positive_of_readUnary hx
  split at h
  · obtain ⟨p, -, h⟩ := Place.lossless.positive_bind_requireObject h
    cases h
    exact positive_nil
  split at h
  · obtain ⟨items, hitems, rfl⟩ := map_eq_ok.1 h
    exact Operand.lossless.positive_readAll hitems
  · cases h
  split at h
  · obtain ⟨x, hx, h⟩ := Operand.lossless.positive_bind_requireObject h
    obtain ⟨ty, hty, h⟩ := Ty.lossless.positive_bind_requireObject h
    cases h
    exact positive_append.2 ⟨hx, hty⟩
  · cases h

theorem lossless : Lossless toDocument ofDocument widths where
  object rv := by cases rv <;> exact ⟨_, rfl⟩
  read_write := ofDocument_toDocument
  positive := positive_of_ofDocument

end Rvalue

namespace Statement

theorem ofDocument_toDocument {stmt : Statement} (h : Positive stmt.widths) :
    ofDocument stmt.toDocument = .ok stmt := by
  cases stmt with
  | assign p rv =>
    exact (Place.lossless.bind_requireObject rfl positive_nil _).trans
      (Rvalue.lossless.bind_requireObject rfl h _)
  | deinit p => exact map_eq_ok.2 ⟨p, p.ofDocument_toDocument, rfl⟩
  | storageLive n => rfl
  | storageDead n => rfl
  | nop => rfl

theorem positive_of_ofDocument {d : Document} {stmt : Statement} (h : ofDocument d = .ok stmt) :
    Positive stmt.widths := by
  unfold ofDocument at h
  split at h
  · obtain ⟨p, -, h⟩ := Place.lossless.positive_bind_requireObject h
    obtain ⟨rv, hrv, h⟩ := Rvalue.lossless.positive_bind_requireObject h
    cases h
    exact hrv
  split at h
  · obtain ⟨p, -, rfl⟩ := map_eq_ok.1 h
    exact positive_nil
  split at h
  · obtain ⟨n, -, rfl⟩ := map_eq_ok.1 h
    exact positive_nil
  split at h
  · obtain ⟨n, -, rfl⟩ := map_eq_ok.1 h
    exact positive_nil
  split at h
  · cases h
    exact positive_nil
  · cases h

theorem lossless : Lossless toDocument ofDocument widths where
  object stmt := by cases stmt <;> exact ⟨_, rfl⟩
  read_write := ofDocument_toDocument
  positive := positive_of_ofDocument

end Statement

/-! ### Bodies and crates -/

theorem LocalDecl.lossless :
    Lossless toDocument ofDocument fun decl : LocalDecl => decl.ty.widths where
  object _ := ⟨_, rfl⟩
  read_write := by
    rintro ⟨ty, isMut⟩ h
    cases isMut <;> exact Ty.lossless.bind_requireObject rfl h _
  positive := by
    intro d decl h
    obtain ⟨ty, hty, h⟩ := Ty.lossless.positive_bind_requireObject h
    cases h
    exact hty

namespace Body

theorem block_lossless :
    Lossless blockDocument readBlock fun block => block.flatMap Statement.widths where
  object _ := ⟨_, rfl⟩
  read_write h := Statement.lossless.readAll_map h
  positive := by
    intro d block h
    obtain ⟨ds, -, h⟩ := bind_eq_ok.1 h
    exact Statement.lossless.positive_readAll h

theorem lossless : Lossless toDocument ofDocument widths where
  object _ := ⟨_, rfl⟩
  read_write := by
    rintro ⟨blocks, locals, argCount⟩ h
    obtain ⟨hblocks, hlocals⟩ := positive_append.1 h
    exact bind_eq_ok.2 ⟨_, rfl, bind_eq_ok.2 ⟨blocks, block_lossless.readAll_map hblocks,
      bind_eq_ok.2 ⟨_, rfl, bind_eq_ok.2 ⟨locals, LocalDecl.lossless.readAll_map hlocals, rfl⟩⟩⟩⟩
  positive := by
    intro d b h
    obtain ⟨_, -, h⟩ := bind_eq_ok.1 h
    obtain ⟨blocks, hblocks, h⟩ := bind_eq_ok.1 h
    obtain ⟨_, -, h⟩ := bind_eq_ok.1 h
    obtain ⟨locals, hlocals, h⟩ := bind_eq_ok.1 h
    obtain ⟨argCount, -, h⟩ := bind_eq_ok.1 h
    cases h
    exact positive_append.2
      ⟨block_lossless.positive_readAll hblocks, LocalDecl.lossless.positive_readAll hlocals⟩

end Body

theorem Function.lossless : Lossless toDocument ofDocument fun f : Function => f.body.widths where
  object _ := ⟨_, rfl⟩
  read_write {f} h :=
    bind_eq_ok.2 ⟨f.name, rfl, Body.lossless.bind_requireObject rfl h _⟩
  positive := by
    intro d f h
    obtain ⟨name, -, h⟩ := bind_eq_ok.1 h
    obtain ⟨body, hbody, h⟩ := Body.lossless.positive_bind_requireObject h
    cases h
    exact hbody

namespace Crate

theorem lossless : Lossless toDocument ofDocument widths where
  object _ := ⟨_, rfl⟩
  read_write {c} h :=
    bind_eq_ok.2 ⟨_, rfl, bind_eq_ok.2 ⟨c.functions, Function.lossless.readAll_map h, rfl⟩⟩
  positive := by
    intro d c h
    unfold ofDocument at h
    split at h
    · obtain ⟨_, -, h⟩ := bind_eq_ok.1 h
      obtain ⟨functions, hfunctions, h⟩ := bind_eq_ok.1 h
      cases h
      exact Function.lossless.positive_readAll hfunctions
    · cases h

/-- **The document form of a crate loses nothing.**

* A crate in which no number type has width 0 is read back as it was written.
* A crate that is read from any document at all is such a crate, so that writing it and reading it
  again gives the same one.
* Different such crates are written as different documents. -/
theorem document_faithful :
    (∀ c : Crate, Positive c.widths → ofDocument c.toDocument = .ok c) ∧
    (∀ d c, ofDocument d = .ok c → Positive c.widths ∧ ofDocument c.toDocument = .ok c) ∧
    ∀ c c' : Crate, Positive c.widths → Positive c'.widths →
      c.toDocument = c'.toDocument → c = c' :=
  ⟨fun _ h => lossless.read_write h, fun _ _ h => ⟨lossless.positive h, lossless.reread h⟩,
    fun _ _ h h' hcc' => lossless.injective h h' hcc'⟩

/-- A crate with every form of type, projection, constant, operand, rvalue and statement, and with a
negative argument count. -/
def everyForm : Crate where
  name := "forms"
  functions := [
    { name := "f"
      body := {
        blocks := [
          [.storageLive 1,
            .assign ⟨1, []⟩ (.use (.const ⟨.int 16, [some 7, none], .allocated⟩)),
            .assign ⟨2, [.deref, .field 1, .index 1]⟩ (.ref ⟨1, []⟩ true),
            .assign ⟨3, [.field 0]⟩ (.binary .lt (.copy ⟨1, []⟩) (.move ⟨1, [.deref]⟩)),
            .assign ⟨3, []⟩ (.checked .add (.copy ⟨1, []⟩) (.const ⟨.uint 8, [], .unevaluated⟩))],
          [],
          [.assign ⟨0, []⟩ (.unary .neg (.copy ⟨1, []⟩)),
            .assign ⟨0, []⟩ (.aggregate [.copy ⟨0, []⟩, .const ⟨.tuple [], [], .zeroSized⟩]),
            .assign ⟨0, []⟩ (.cast (.copy ⟨0, []⟩) (.float 64)),
            .deinit ⟨3, [.field 0]⟩, .nop, .storageDead 1]]
        locals := [⟨.tuple [.bool, .tuple [.uint 1, .adt "S"]], true⟩, ⟨.int 16, false⟩,
          ⟨.ref (.ref .str false) true, false⟩]
        argCount := -2 } },
    ⟨"f", ⟨[], [], 0⟩⟩]

theorem document_faithful_everyForm :
    ofDocument everyForm.toDocument = .ok everyForm ∧
      (∃ c, ofDocument (.object [("functions", .list [])]) = .ok c ∧
        ofDocument c.toDocument = .ok c) ∧
      everyForm.toDocument ≠ { everyForm with name := "main" }.toDocument := by
  have hforms : Positive everyForm.widths := by decide
  refine ⟨document_faithful.1 everyForm hforms, ⟨⟨"main", []⟩, rfl, ?_⟩, fun h => ?_⟩
  · exact (document_faithful.2.1 (.object [("functions", .list [])]) _ rfl).2
  · have heq := document_faithful.2.2 _ _ hforms (by decide) h
    have hname : "forms" = "main" := congrArg Crate.name heq
    simp at hname

end Crate

end MirRange
