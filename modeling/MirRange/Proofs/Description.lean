import MirRange.Proofs.Dispatch
import MirRange.Proofs.RoundTrip

/-!
# What documents describe

Here it is said, without the reader, which documents describe a crate: part by part, by what stands
under which keys.  A local, an index and an argument count are described by an integer and by
nothing else, a byte by an integer or null; what may be left out has a default.  The reader accepts
exactly the documents that describe something, and gives what they describe.

* `Document.Under`, `Document.Lists`, `Document.MayList`: what stands under a key.
* `Ty.Described`, …, `Crate.Described`: a document describes a part of a crate.
* `Exact`: a reader that accepts exactly what a relation says.
* `Ty.exact`, …, `Crate.exact`: the readers, part by part.
-/

namespace MirRange

variable {α β : Type}

/-! ### Keys -/

namespace Document

/-- Under a key stands what describes something. -/
def Under (d : Document) (key : String) (R : Document → α → Prop) (a : α) : Prop :=
  ∃ x, d.get? key = some x ∧ R x a

/-- Under a key stands a list of what describes some things, one by one. -/
def Lists (d : Document) (key : String) (R : Document → α → Prop) (as : List α) : Prop :=
  ∃ ds, d.get? key = some (.list ds) ∧ List.Forall₂ R ds as

/-- As `Lists`, but the list may be left out if it is empty. -/
def MayList (d : Document) (key : String) (R : Document → α → Prop) (as : List α) : Prop :=
  d.get? key = none ∧ as = [] ∨ d.Lists key R as

end Document

/-! ### Descriptions -/

/-- A document gives the width of a number type: a positive integer, or the width of a pointer where
it is left open. -/
def Ty.GivesWidth (d : Document) (w : Nat) : Prop :=
  0 < w ∧ d.get? "bits" = some (.int w) ∨
    w = 64 ∧ (d.get? "bits" = none ∨ d.get? "bits" = some .null ∨
      d.get? "bits" = some (.text "size"))

/-- A document describes a type. -/
inductive Ty.Described : Document → Ty → Prop
  | bool {d : Document} : d.get? "kind" = some (.text "bool") → Described d .bool
  | int {d : Document} {w : Nat} : d.get? "kind" = some (.text "int") → GivesWidth d w →
      Described d (.int w)
  | uint {d : Document} {w : Nat} : d.get? "kind" = some (.text "uint") → GivesWidth d w →
      Described d (.uint w)
  | float {d : Document} {w : Nat} : d.get? "kind" = some (.text "float") → GivesWidth d w →
      Described d (.float w)
  | unit {d : Document} : d.get? "kind" = some (.text "tuple") → d.get? "fields" = none →
      Described d (.tuple [])
  | tuple {d : Document} {ds : List Document} {ts : List Ty} :
      d.get? "kind" = some (.text "tuple") → d.get? "fields" = some (.list ds) →
      List.Forall₂ Described ds ts → Described d (.tuple ts)
  | ref {d x : Document} {t : Ty} : d.get? "kind" = some (.text "ref") →
      d.get? "pointee" = some x → Described x t → Described d (.ref t (d.flag "mutable"))
  | adt {d : Document} : d.get? "kind" = some (.text "adt") →
      Described d (.adt (((d.get? "name").map Document.display).getD ""))
  | str {d : Document} : d.get? "kind" = some (.text "str") → Described d .str

/-- A document describes a step of a place. -/
inductive Projection.Described : Document → Projection → Prop
  | field {d : Document} {i : Int} : d.get? "field" = some (.int i) → Described d (.field i)
  | index {d : Document} {n : Local} : d.Lacks ["field"] → d.get? "index" = some (.int n) →
      Described d (.index n)
  | deref {d x : Document} : d.Lacks ["field", "index"] → d.get? "deref" = some x →
      Described d .deref

/-- A document describes a place. -/
structure Place.Described (d : Document) (p : Place) : Prop where
  base : d.get? "local" = some (.int p.base)
  path : d.MayList "projection" Projection.Described p.path

/-- A document describes a constant. -/
structure Const.Described (d : Document) (c : Const) : Prop where
  kind : d.get? "kind" = none ∧ c.kind = .allocated ∨ d.get? "kind" = some (.text c.kind.name)
  bytes : d.MayList "bytes" (fun x byte => x = byteDocument byte) c.bytes
  ty : d.Under "ty" Ty.Described c.ty

/-- A document describes an operand. -/
inductive Operand.Described : Document → Operand → Prop
  | copy {d : Document} {p : Place} : d.Under "copy" Place.Described p → Described d (.copy p)
  | move {d : Document} {p : Place} : d.Lacks ["copy"] → d.Under "move" Place.Described p →
      Described d (.move p)
  | const {d : Document} {c : Const} : d.Lacks ["copy", "move"] →
      d.Under "const" Const.Described c → Described d (.const c)

/-- A list of the name of an operator and two operands. -/
def Rvalue.DescribedBinary (x : Document) (op : BinOp) (l r : Operand) : Prop :=
  ∃ dl dr, x = .list [.text op.name, dl, dr] ∧ Operand.Described dl l ∧ Operand.Described dr r

/-- A list of the name of an operator and an operand. -/
def Rvalue.DescribedUnary (x : Document) (op : UnOp) (y : Operand) : Prop :=
  ∃ dy, x = .list [.text op.name, dy] ∧ Operand.Described dy y

/-- A document describes an rvalue. -/
inductive Rvalue.Described : Document → Rvalue → Prop
  | use {d : Document} {x : Operand} : d.Under "use" Operand.Described x → Described d (.use x)
  | binary {d x : Document} {op : BinOp} {l r : Operand} : d.Lacks ["use"] →
      d.get? "binary_op" = some x → DescribedBinary x op l r → Described d (.binary op l r)
  | checked {d x : Document} {op : BinOp} {l r : Operand} : d.Lacks ["use", "binary_op"] →
      d.get? "checked_binary_op" = some x → DescribedBinary x op l r →
      Described d (.checked op l r)
  | unary {d x : Document} {op : UnOp} {y : Operand} :
      d.Lacks ["use", "binary_op", "checked_binary_op"] → d.get? "unary_op" = some x →
      DescribedUnary x op y → Described d (.unary op y)
  | ref {d x : Document} {p : Place} :
      d.Lacks ["use", "binary_op", "checked_binary_op", "unary_op"] → d.get? "ref" = some x →
      x.Under "place" Place.Described p → Described d (.ref p (x.flag "mutable"))
  | aggregate {d : Document} {items : List Operand} :
      d.Lacks ["use", "binary_op", "checked_binary_op", "unary_op", "ref"] →
      d.Lists "aggregate" Operand.Described items → Described d (.aggregate items)
  | cast {d x : Document} {y : Operand} {t : Ty} :
      d.Lacks ["use", "binary_op", "checked_binary_op", "unary_op", "ref", "aggregate"] →
      d.get? "cast" = some x → x.Under "operand" Operand.Described y →
      x.Under "ty" Ty.Described t → Described d (.cast y t)

/-- A document describes a statement. -/
inductive Statement.Described : Document → Statement → Prop
  | assign {d x : Document} {p : Place} {rv : Rvalue} : d.get? "assign" = some x →
      x.Under "place" Place.Described p → x.Under "rvalue" Rvalue.Described rv →
      Described d (.assign p rv)
  | deinit {d : Document} {p : Place} : d.Lacks ["assign"] →
      d.Under "deinit" Place.Described p → Described d (.deinit p)
  | storageLive {d : Document} {n : Local} : d.Lacks ["assign", "deinit"] →
      d.get? "storage_live" = some (.int n) → Described d (.storageLive n)
  | storageDead {d : Document} {n : Local} : d.Lacks ["assign", "deinit", "storage_live"] →
      d.get? "storage_dead" = some (.int n) → Described d (.storageDead n)
  | nop {d x : Document} : d.Lacks ["assign", "deinit", "storage_live", "storage_dead"] →
      d.get? "nop" = some x → Described d .nop

/-- A document describes the declaration of a local. -/
structure LocalDecl.Described (d : Document) (decl : LocalDecl) : Prop where
  ty : d.Under "ty" Ty.Described decl.ty
  isMut : decl.isMut = d.flag "mutable"

/-- A document describes a body.  The argument count is left out if it is 0. -/
structure Body.Described (d : Document) (b : Body) : Prop where
  blocks : d.Lists "blocks" (·.Lists "statements" Statement.Described) b.blocks
  locals : d.Lists "locals" LocalDecl.Described b.locals
  argCount : d.get? "arg_count" = none ∧ b.argCount = 0 ∨
    d.get? "arg_count" = some (.int b.argCount)

/-- A document describes a function. -/
structure Function.Described (d : Document) (f : Function) : Prop where
  name : d.get? "name" = some (.text f.name)
  body : d.Under "body" Body.Described f.body

/-- A document describes a crate. -/
structure Crate.Described (d : Document) (c : Crate) : Prop where
  name : c.name = ((d.get? "crate").map Document.display).getD "main"
  functions : d.Lists "functions" Function.Described c.functions

/-! ### Exact readers -/

namespace Document

variable {d x : Document} {key : String}

theorem exists_object (h : d.get? key = some x) : ∃ ms, d = .object ms := by
  cases d with
  | object ms => exact ⟨ms, rfl⟩
  | _ => simp [get?, members, Members.get?] at h

theorem Under.object {R : Document → α → Prop} {a : α} (h : d.Under key R a) :
    ∃ ms, d = .object ms := by
  obtain ⟨x, hx, -⟩ := h
  exact exists_object hx

theorem Lists.object {R : Document → α → Prop} {as : List α} (h : d.Lists key R as) :
    ∃ ms, d = .object ms := by
  obtain ⟨ds, hds, -⟩ := h
  exact exists_object hds

/-- Reading under a key gives a result exactly if the document there is the one that it stands
for. -/
theorem bind_require_eq_ok {read : Document → Except Malformed α} {a : α}
    (h : ∀ y, read y = .ok a ↔ y = x) :
    (do read (← d.require key)) = .ok a ↔ d.get? key = some x := by
  rw [bind_eq_ok]
  constructor
  · rintro ⟨y, hy, ha⟩
    rw [← (h y).1 ha]
    exact require_eq_ok.1 hy
  · intro hx
    exact ⟨x, require_eq_ok.2 hx, (h x).2 rfl⟩

theorem requireList_eq_ok {ds : List Document} :
    d.requireList key = .ok ds ↔ d.get? key = some (.list ds) :=
  bind_require_eq_ok fun y => by cases y <;> simp

theorem requireText_eq_ok {s : String} :
    d.requireText key = .ok s ↔ d.get? key = some (.text s) :=
  bind_require_eq_ok fun y => by cases y <;> simp

/-- A truth value is refused, although it passes as an integer at first. -/
theorem requireInteger_eq_ok {n : Int} :
    d.requireInteger key = .ok n ↔ d.get? key = some (.int n) :=
  bind_require_eq_ok fun y => by cases y <;> simp

theorem integer_eq_ok {n : Int} : integer key x = .ok n ↔ x = .int n := by
  cases x <;> simp [integer]

end Document

/-- A reader accepts exactly the documents that describe something, and these are objects. -/
structure Exact (read : Document → Except Malformed α) (R : Document → α → Prop) : Prop where
  read_eq_ok : ∀ {d a}, read d = .ok a ↔ R d a
  object : ∀ {d a}, R d a → ∃ ms, d = .object ms

namespace Exact

variable {read : Document → Except Malformed α} {R : Document → α → Prop} {d : Document}
  {key : String}

theorem bind_requireObject (h : Exact read R) {f : α → Except Malformed β} {b : β} :
    (do f (← read (← d.requireObject key))) = .ok b ↔ ∃ a, d.Under key R a ∧ f a = .ok b := by
  constructor
  · intro hd
    obtain ⟨x, hx, hd⟩ := bind_eq_ok.1 hd
    obtain ⟨a, ha, hb⟩ := bind_eq_ok.1 hd
    exact ⟨a, ⟨x, (Document.requireObject_eq_ok.1 hx).1, h.read_eq_ok.1 ha⟩, hb⟩
  · rintro ⟨a, ⟨x, hx, ha⟩, hb⟩
    have hobject := Document.requireObject_eq_ok.2 ⟨hx, h.object ha⟩
    exact bind_eq_ok.2 ⟨x, hobject, bind_eq_ok.2 ⟨a, h.read_eq_ok.2 ha, hb⟩⟩

theorem readAll_eq_ok (h : Exact read R) {ds : List Document} {as : List α} :
    readAll read ds = .ok as ↔ List.Forall₂ R ds as := by
  rw [MirRange.readAll_eq_ok]
  constructor
  · exact fun hds => hds.imp fun _ _ => h.read_eq_ok.1
  · exact fun hds => hds.imp fun _ _ => h.read_eq_ok.2

theorem bind_requireList (h : Exact read R) {f : List α → Except Malformed β} {b : β} :
    (do f (← readAll read (← d.requireList key))) = .ok b ↔
      ∃ as, d.Lists key R as ∧ f as = .ok b := by
  constructor
  · intro hd
    obtain ⟨ds, hds, hd⟩ := bind_eq_ok.1 hd
    obtain ⟨as, has, hb⟩ := bind_eq_ok.1 hd
    exact ⟨as, ⟨ds, Document.requireList_eq_ok.1 hds, h.readAll_eq_ok.1 has⟩, hb⟩
  · rintro ⟨as, ⟨ds, hds, has⟩, hb⟩
    exact bind_eq_ok.2 ⟨ds, Document.requireList_eq_ok.2 hds,
      bind_eq_ok.2 ⟨as, h.readAll_eq_ok.2 has, hb⟩⟩

end Exact

/-! ### Types -/

namespace Ty

variable {d : Document} {t : Ty}

theorem readWidth_eq_ok {w : Nat} : readWidth d = .ok w ↔ GivesWidth d w := by
  unfold readWidth GivesWidth
  cases d.get? "bits" with
  | none => simp [eq_comm]
  | some x =>
    cases x with
    | int n =>
      by_cases hn : n > 0
      · simp [hn]
        omega
      · simp [hn]
        omega
    | text s =>
      by_cases hs : s = "size"
      · simp [hs, eq_comm]
      · simp [hs]
    | null => simp [eq_comm]
    | _ => simp

/-- The documents under the fields of a tuple type are smaller than its own. -/
theorem sizeOf_field {d' : Document} {ds : List Document}
    (hfields : d.get? "fields" = some (.list ds)) (hmem : d' ∈ ds) : sizeOf d' < sizeOf d := by
  have hlist := Document.sizeOf_get? hfields
  have hitem := List.sizeOf_lt_of_mem hmem
  simp only [Document.list.sizeOf_spec] at hlist
  omega

/-- What is read as a type describes it.  The recursion is that of the reader. -/
theorem described_of_ofDocument {d : Document} {t : Ty} (h : ofDocument d = .ok t) :
    Described d t := by
  by_cases hkind : ∃ kind, d.get? "kind" = some (.text kind)
  · obtain ⟨kind, hkind⟩ := hkind
    rw [ofDocument_of_kind hkind, readKind] at h
    split at h
    · rename_i hbool
      cases h
      exact .bool (hbool ▸ hkind)
    split at h
    · rename_i hint
      obtain ⟨w, hw, rfl⟩ := map_eq_ok.1 h
      exact .int (hint ▸ hkind) (readWidth_eq_ok.1 hw)
    split at h
    · rename_i huint
      obtain ⟨w, hw, rfl⟩ := map_eq_ok.1 h
      exact .uint (huint ▸ hkind) (readWidth_eq_ok.1 hw)
    split at h
    · rename_i hfloat
      obtain ⟨w, hw, rfl⟩ := map_eq_ok.1 h
      exact .float (hfloat ▸ hkind) (readWidth_eq_ok.1 hw)
    split at h
    · rename_i htuple
      split at h
      · rename_i hfields
        cases h
        exact .unit (htuple ▸ hkind) hfields
      · rename_i ds hfields
        obtain ⟨ts, hts, rfl⟩ := map_eq_ok.1 h
        refine .tuple (htuple ▸ hkind) hfields (forall₂_imp_mem (readAll_eq_ok.1 hts) ?_)
        intro d' hd' t' ht'
        have hsize := sizeOf_field hfields hd'
        exact described_of_ofDocument ht'
      · cases h
    split at h
    · rename_i href
      split at h
      · cases h
      · rename_i x hx
        obtain ⟨t', ht', rfl⟩ := map_eq_ok.1 h
        have hsize := Document.sizeOf_get? hx
        exact .ref (href ▸ hkind) hx (described_of_ofDocument ht')
    split at h
    · rename_i hadt
      cases h
      exact .adt (hadt ▸ hkind)
    split at h
    · rename_i hstr
      cases h
      exact .str (hstr ▸ hkind)
    · cases h
  · rw [ofDocument_of_no_kind fun kind hk => hkind ⟨kind, hk⟩] at h
    cases h
termination_by sizeOf d

/-- What describes a type is read as it. -/
theorem Described.ofDocument_eq {d : Document} {t : Ty} (h : Described d t) :
    ofDocument d = .ok t := by
  cases h with
  | bool hkind => rw [ofDocument_of_kind hkind, readKind, if_pos rfl]
  | int hkind hw =>
    rw [ofDocument_of_kind hkind]
    exact map_eq_ok.2 ⟨_, readWidth_eq_ok.2 hw, rfl⟩
  | uint hkind hw =>
    rw [ofDocument_of_kind hkind]
    exact map_eq_ok.2 ⟨_, readWidth_eq_ok.2 hw, rfl⟩
  | float hkind hw =>
    rw [ofDocument_of_kind hkind]
    exact map_eq_ok.2 ⟨_, readWidth_eq_ok.2 hw, rfl⟩
  | unit hkind hfields =>
    rw [ofDocument_of_kind hkind]
    simp [readKind, hfields]
  | @tuple _ ds ts hkind hfields hts =>
    have hread : readAll ofDocument ds = .ok ts := by
      refine readAll_eq_ok.2 (forall₂_imp_mem hts ?_)
      intro d' hd' t' ht'
      have hsize := sizeOf_field hfields hd'
      exact Described.ofDocument_eq ht'
    rw [ofDocument_tuple hkind hfields, ofDocuments_eq_readAll, hread]
    rfl
  | ref hkind hx ht =>
    have hsize := Document.sizeOf_get? hx
    rw [ofDocument_ref hkind hx, Described.ofDocument_eq ht]
    rfl
  | adt hkind => rw [ofDocument_of_kind hkind]; rfl
  | str hkind => rw [ofDocument_of_kind hkind]; rfl
termination_by sizeOf d

theorem exact : Exact ofDocument Described where
  read_eq_ok := ⟨described_of_ofDocument, Described.ofDocument_eq⟩
  object h := by cases h <;> exact Document.exists_object ‹_ = some (.text _)›

end Ty

/-! ### Places and operands -/

namespace Projection

theorem exact : Exact ofDocument Described where
  read_eq_ok := by
    intro d p
    constructor
    · intro h
      rw [ofDocument_eq] at h
      rcases Document.dispatch_cases (List.forall_mem_nil _) h with ⟨x, hx, h⟩ | ⟨hlacks, h⟩
      · obtain ⟨i, hi, rfl⟩ := map_eq_ok.1 h
        exact .field (Document.integer_eq_ok.1 hi ▸ hx)
      rcases Document.dispatch_cases hlacks h with ⟨x, hx, h⟩ | ⟨hlacks, h⟩
      · obtain ⟨i, hi, rfl⟩ := map_eq_ok.1 h
        exact .index hlacks (Document.integer_eq_ok.1 hi ▸ hx)
      rcases Document.dispatch_cases hlacks h with ⟨x, hx, h⟩ | ⟨hlacks, h⟩
      · cases h
        exact .deref hlacks hx
      · cases h
    · intro h
      rw [ofDocument_eq]
      cases h with
      | field hx => exact Document.dispatch_at readers 0 (List.forall_mem_nil _) rfl hx
      | index hlacks hx => exact Document.dispatch_at readers 1 hlacks rfl hx
      | deref hlacks hx => exact Document.dispatch_at readers 2 hlacks rfl hx
  object h := by cases h <;> exact Document.exists_object ‹_ = some _›

end Projection

theorem Place.exact : Exact ofDocument Described where
  read_eq_ok := by
    intro d p
    obtain ⟨base, path⟩ := p
    constructor
    · intro h
      obtain ⟨n, hn, h⟩ := bind_eq_ok.1 h
      have hbase := Document.requireInteger_eq_ok.1 hn
      split at h
      · rename_i hpath
        cases h
        exact ⟨hbase, .inl ⟨hpath, rfl⟩⟩
      · rename_i ds hpath
        obtain ⟨steps, hsteps, h⟩ := bind_eq_ok.1 h
        cases h
        exact ⟨hbase, .inr ⟨ds, hpath, Projection.exact.readAll_eq_ok.1 hsteps⟩⟩
      · cases h
    · intro h
      obtain ⟨hbase, hpath⟩ := h
      refine bind_eq_ok.2 ⟨base, Document.requireInteger_eq_ok.2 hbase, ?_⟩
      rcases hpath with ⟨hpath, rfl⟩ | ⟨ds, hpath, hsteps⟩
      · simp only [hpath]
        rfl
      · simp only [hpath]
        exact bind_eq_ok.2 ⟨path, Projection.exact.readAll_eq_ok.2 hsteps, rfl⟩
  object h := Document.exists_object h.base

theorem ConstKind.ofName?_eq_some {s : String} {kind : ConstKind} :
    ofName? s = some kind ↔ kind.name = s := by
  constructor
  · intro h
    simpa using List.find?_some h
  · rintro rfl
    cases kind <;> rfl

theorem ConstKind.ofDocument_eq_ok {d : Document} {kind : ConstKind} : ofDocument d = .ok kind ↔
    d.get? "kind" = none ∧ kind = .allocated ∨ d.get? "kind" = some (.text kind.name) := by
  constructor
  · intro h
    unfold ofDocument at h
    split at h
    · rename_i hnone
      cases h
      exact .inl ⟨hnone, rfl⟩
    · rename_i s hs
      split at h
      · rename_i kind' hkind
        cases h
        rw [ofName?_eq_some.1 hkind]
        exact .inr hs
      · cases h
    · cases h
  · rintro (⟨h, rfl⟩ | h)
    · simp only [ofDocument, h]
    · have hname : ofName? kind.name = some kind := ofName?_eq_some.2 rfl
      simp only [ofDocument, h, hname]

namespace Const

theorem byte?_eq_some {x : Document} {byte : Option Int} :
    byte? x = some byte ↔ x = byteDocument byte := by
  cases x <;> cases byte <;> simp [byte?, byteDocument]

theorem bytes?_eq_some {ds : List Document} {bytes : List (Option Int)} :
    bytes? ds = some bytes ↔ List.Forall₂ (fun x byte => x = byteDocument byte) ds bytes := by
  induction ds generalizing bytes with
  | nil => simp [bytes?, eq_comm]
  | cons x ds ih =>
    cases bytes with
    | nil => simp [bytes?, Option.bind_eq_some_iff]
    | cons byte bytes =>
      simp [bytes?, Option.bind_eq_some_iff, byte?_eq_some, ih]

theorem readBytes_eq_ok {d : Document} {bytes : List (Option Int)} :
    readBytes d = .ok bytes ↔ d.MayList "bytes" (fun x byte => x = byteDocument byte) bytes := by
  unfold readBytes Document.MayList Document.Lists
  cases d.get? "bytes" with
  | none => simp [eq_comm]
  | some x =>
    cases x with
    | list ds =>
      simp only [reduceCtorEq, false_and, false_or, Option.some.injEq, Document.list.injEq,
        exists_eq_left']
      rw [← bytes?_eq_some]
      cases bytes? ds <;> simp
    | _ => simp

theorem exact : Exact ofDocument Described where
  read_eq_ok := by
    intro d c
    obtain ⟨ty, bytes, kind⟩ := c
    constructor
    · intro h
      obtain ⟨kind', hkind, h⟩ := bind_eq_ok.1 h
      obtain ⟨bytes', hbytes, h⟩ := bind_eq_ok.1 h
      obtain ⟨ty', hty, h⟩ := Ty.exact.bind_requireObject.1 h
      cases h
      exact ⟨ConstKind.ofDocument_eq_ok.1 hkind, readBytes_eq_ok.1 hbytes, hty⟩
    · intro h
      refine bind_eq_ok.2 ⟨kind, ConstKind.ofDocument_eq_ok.2 h.kind, ?_⟩
      refine bind_eq_ok.2 ⟨bytes, readBytes_eq_ok.2 h.bytes, ?_⟩
      exact Ty.exact.bind_requireObject.2 ⟨ty, h.ty, rfl⟩
  object h := h.ty.object

end Const

namespace Operand

theorem readConst_eq_ok {x : Document} {y : Operand} :
    readConst x = .ok y ↔ ∃ c, Const.Described x c ∧ .const c = y := by
  constructor
  · intro h
    unfold readConst at h
    split at h
    · obtain ⟨c, hc, rfl⟩ := map_eq_ok.1 h
      exact ⟨c, Const.exact.read_eq_ok.1 hc, rfl⟩
    · cases h
  · rintro ⟨c, hc, rfl⟩
    obtain ⟨ms, rfl⟩ := Const.exact.object hc
    exact map_eq_ok.2 ⟨c, Const.exact.read_eq_ok.2 hc, rfl⟩

theorem exact : Exact ofDocument Described where
  read_eq_ok := by
    intro d y
    constructor
    · intro h
      rw [ofDocument_eq] at h
      rcases Document.dispatch_cases (List.forall_mem_nil _) h with ⟨x, hx, h⟩ | ⟨hlacks, h⟩
      · obtain ⟨p, hp, rfl⟩ := map_eq_ok.1 h
        exact .copy ⟨x, hx, Place.exact.read_eq_ok.1 hp⟩
      rcases Document.dispatch_cases hlacks h with ⟨x, hx, h⟩ | ⟨hlacks, h⟩
      · obtain ⟨p, hp, rfl⟩ := map_eq_ok.1 h
        exact .move hlacks ⟨x, hx, Place.exact.read_eq_ok.1 hp⟩
      rcases Document.dispatch_cases hlacks h with ⟨x, hx, h⟩ | ⟨hlacks, h⟩
      · obtain ⟨c, hc, rfl⟩ := readConst_eq_ok.1 h
        exact .const hlacks ⟨x, hx, hc⟩
      · cases h
    · intro h
      rw [ofDocument_eq]
      cases h with
      | @copy p hp =>
        obtain ⟨x, hx, hp⟩ := hp
        rw [Document.dispatch_at readers 0 (List.forall_mem_nil _) rfl hx]
        exact map_eq_ok.2 ⟨p, Place.exact.read_eq_ok.2 hp, rfl⟩
      | @move p hlacks hp =>
        obtain ⟨x, hx, hp⟩ := hp
        rw [Document.dispatch_at readers 1 hlacks rfl hx]
        exact map_eq_ok.2 ⟨p, Place.exact.read_eq_ok.2 hp, rfl⟩
      | @const c hlacks hc =>
        obtain ⟨x, hx, hc⟩ := hc
        rw [Document.dispatch_at readers 2 hlacks rfl hx]
        exact readConst_eq_ok.2 ⟨c, hc, rfl⟩
  object h := by
    cases h with
    | copy hp => exact hp.object
    | move _ hp => exact hp.object
    | const _ hc => exact hc.object

end Operand

/-! ### Rvalues and statements -/

theorem BinOp.ofDocument_eq_ok {x : Document} {op : BinOp} :
    ofDocument x = .ok op ↔ x = .text op.name := by
  constructor
  · intro h
    unfold ofDocument at h
    split at h
    · rename_i s
      split at h
      · rename_i op' hop
        cases h
        have hname : op.name = s := by simpa using List.find?_some hop
        rw [hname]
      · cases h
    · cases h
  · rintro rfl
    exact op.ofDocument_name

theorem UnOp.ofDocument_eq_ok {x : Document} {op : UnOp} :
    ofDocument x = .ok op ↔ x = .text op.name := by
  constructor
  · intro h
    unfold ofDocument at h
    split at h
    · rename_i s
      split at h
      · rename_i op' hop
        cases h
        have hname : op.name = s := by simpa using List.find?_some hop
        rw [hname]
      · cases h
    · cases h
  · rintro rfl
    exact op.ofDocument_name

namespace Rvalue

theorem readBinary_eq_ok {what : Listed} {x : Document} {op : BinOp} {l r : Operand} :
    readBinary what x = .ok (op, l, r) ↔ DescribedBinary x op l r := by
  constructor
  · intro h
    unfold readBinary at h
    split at h
    · obtain ⟨op', hop, h⟩ := bind_eq_ok.1 h
      obtain ⟨l', hl, h⟩ := bind_eq_ok.1 h
      obtain ⟨r', hr, h⟩ := bind_eq_ok.1 h
      cases h
      rw [BinOp.ofDocument_eq_ok.1 hop]
      exact ⟨_, _, rfl, Operand.exact.read_eq_ok.1 hl, Operand.exact.read_eq_ok.1 hr⟩
    · cases h
  · rintro ⟨dl, dr, rfl, hl, hr⟩
    exact bind_eq_ok.2 ⟨op, op.ofDocument_name, bind_eq_ok.2 ⟨l, Operand.exact.read_eq_ok.2 hl,
      bind_eq_ok.2 ⟨r, Operand.exact.read_eq_ok.2 hr, rfl⟩⟩⟩

theorem readUnary_eq_ok {x : Document} {op : UnOp} {y : Operand} :
    readUnary x = .ok (op, y) ↔ DescribedUnary x op y := by
  constructor
  · intro h
    unfold readUnary at h
    split at h
    · obtain ⟨op', hop, h⟩ := bind_eq_ok.1 h
      obtain ⟨y', hy, h⟩ := bind_eq_ok.1 h
      cases h
      rw [UnOp.ofDocument_eq_ok.1 hop]
      exact ⟨_, rfl, Operand.exact.read_eq_ok.1 hy⟩
    · cases h
  · rintro ⟨dy, rfl, hy⟩
    exact bind_eq_ok.2 ⟨op, op.ofDocument_name,
      bind_eq_ok.2 ⟨y, Operand.exact.read_eq_ok.2 hy, rfl⟩⟩

theorem readAggregate_eq_ok {x : Document} {rv : Rvalue} : readAggregate x = .ok rv ↔
    ∃ ds items, x = .list ds ∧ List.Forall₂ Operand.Described ds items ∧ .aggregate items = rv := by
  constructor
  · intro h
    unfold readAggregate at h
    split at h
    · obtain ⟨items, hitems, rfl⟩ := map_eq_ok.1 h
      exact ⟨_, items, rfl, Operand.exact.readAll_eq_ok.1 hitems, rfl⟩
    · cases h
  · rintro ⟨ds, items, rfl, hitems, rfl⟩
    exact map_eq_ok.2 ⟨items, Operand.exact.readAll_eq_ok.2 hitems, rfl⟩

/-- What is read as an rvalue describes it: the keys in the order in which they are tried. -/
theorem described_of_ofDocument {d : Document} {rv : Rvalue} (h : ofDocument d = .ok rv) :
    Described d rv := by
  rw [ofDocument_eq] at h
  rcases Document.dispatch_cases (List.forall_mem_nil _) h with ⟨x, hx, h⟩ | ⟨hlacks, h⟩
  · obtain ⟨y, hy, rfl⟩ := map_eq_ok.1 h
    exact .use ⟨x, hx, Operand.exact.read_eq_ok.1 hy⟩
  rcases Document.dispatch_cases hlacks h with ⟨x, hx, h⟩ | ⟨hlacks, h⟩
  · obtain ⟨y, hy, rfl⟩ := map_eq_ok.1 h
    exact .binary hlacks hx (readBinary_eq_ok.1 hy)
  rcases Document.dispatch_cases hlacks h with ⟨x, hx, h⟩ | ⟨hlacks, h⟩
  · obtain ⟨y, hy, rfl⟩ := map_eq_ok.1 h
    exact .checked hlacks hx (readBinary_eq_ok.1 hy)
  rcases Document.dispatch_cases hlacks h with ⟨x, hx, h⟩ | ⟨hlacks, h⟩
  · obtain ⟨y, hy, rfl⟩ := map_eq_ok.1 h
    exact .unary hlacks hx (readUnary_eq_ok.1 hy)
  rcases Document.dispatch_cases hlacks h with ⟨x, hx, h⟩ | ⟨hlacks, h⟩
  · obtain ⟨p, hp, h⟩ := Place.exact.bind_requireObject.1 h
    cases h
    exact .ref hlacks hx hp
  rcases Document.dispatch_cases hlacks h with ⟨x, hx, h⟩ | ⟨hlacks, h⟩
  · obtain ⟨ds, items, rfl, hitems, rfl⟩ := readAggregate_eq_ok.1 h
    exact .aggregate hlacks ⟨ds, hx, hitems⟩
  rcases Document.dispatch_cases hlacks h with ⟨x, hx, h⟩ | ⟨hlacks, h⟩
  · obtain ⟨y, hy, h⟩ := Operand.exact.bind_requireObject.1 h
    obtain ⟨t, ht, h⟩ := Ty.exact.bind_requireObject.1 h
    cases h
    exact .cast hlacks hx hy ht
  · cases h

/-- What describes an rvalue is read as it. -/
theorem Described.ofDocument_eq_ok {d : Document} {rv : Rvalue} (h : Described d rv) :
    ofDocument d = .ok rv := by
  rw [ofDocument_eq]
  cases h with
  | @use y hy =>
    obtain ⟨x, hx, hy⟩ := hy
    rw [Document.dispatch_at readers 0 (List.forall_mem_nil _) rfl hx]
    exact map_eq_ok.2 ⟨y, Operand.exact.read_eq_ok.2 hy, rfl⟩
  | binary hlacks hx h =>
    rw [Document.dispatch_at readers 1 hlacks rfl hx]
    exact map_eq_ok.2 ⟨_, readBinary_eq_ok.2 h, rfl⟩
  | checked hlacks hx h =>
    rw [Document.dispatch_at readers 2 hlacks rfl hx]
    exact map_eq_ok.2 ⟨_, readBinary_eq_ok.2 h, rfl⟩
  | unary hlacks hx h =>
    rw [Document.dispatch_at readers 3 hlacks rfl hx]
    exact map_eq_ok.2 ⟨_, readUnary_eq_ok.2 h, rfl⟩
  | ref hlacks hx hp =>
    rw [Document.dispatch_at readers 4 hlacks rfl hx]
    exact Place.exact.bind_requireObject.2 ⟨_, hp, rfl⟩
  | aggregate hlacks h =>
    obtain ⟨ds, hds, hitems⟩ := h
    rw [Document.dispatch_at readers 5 hlacks rfl hds]
    exact readAggregate_eq_ok.2 ⟨ds, _, rfl, hitems, rfl⟩
  | cast hlacks hx hy ht =>
    rw [Document.dispatch_at readers 6 hlacks rfl hx]
    exact Operand.exact.bind_requireObject.2 ⟨_, hy, Ty.exact.bind_requireObject.2 ⟨_, ht, rfl⟩⟩

theorem exact : Exact ofDocument Described where
  read_eq_ok := ⟨described_of_ofDocument, Described.ofDocument_eq_ok⟩
  object h := by
    cases h with
    | use h => exact h.object
    | binary _ hx _ => exact Document.exists_object hx
    | checked _ hx _ => exact Document.exists_object hx
    | unary _ hx _ => exact Document.exists_object hx
    | ref _ hx _ => exact Document.exists_object hx
    | aggregate _ h => exact h.object
    | cast _ hx _ _ => exact Document.exists_object hx

end Rvalue

namespace Statement

/-- What is read as a statement describes it: the keys in the order in which they are tried. -/
theorem described_of_ofDocument {d : Document} {stmt : Statement} (h : ofDocument d = .ok stmt) :
    Described d stmt := by
  rw [ofDocument_eq] at h
  rcases Document.dispatch_cases (List.forall_mem_nil _) h with ⟨x, hx, h⟩ | ⟨hlacks, h⟩
  · obtain ⟨p, hp, h⟩ := Place.exact.bind_requireObject.1 h
    obtain ⟨rv, hrv, h⟩ := Rvalue.exact.bind_requireObject.1 h
    cases h
    exact .assign hx hp hrv
  rcases Document.dispatch_cases hlacks h with ⟨x, hx, h⟩ | ⟨hlacks, h⟩
  · obtain ⟨p, hp, rfl⟩ := map_eq_ok.1 h
    exact .deinit hlacks ⟨x, hx, Place.exact.read_eq_ok.1 hp⟩
  rcases Document.dispatch_cases hlacks h with ⟨x, hx, h⟩ | ⟨hlacks, h⟩
  · obtain ⟨n, hn, rfl⟩ := map_eq_ok.1 h
    exact .storageLive hlacks (Document.integer_eq_ok.1 hn ▸ hx)
  rcases Document.dispatch_cases hlacks h with ⟨x, hx, h⟩ | ⟨hlacks, h⟩
  · obtain ⟨n, hn, rfl⟩ := map_eq_ok.1 h
    exact .storageDead hlacks (Document.integer_eq_ok.1 hn ▸ hx)
  rcases Document.dispatch_cases hlacks h with ⟨x, hx, h⟩ | ⟨hlacks, h⟩
  · cases h
    exact .nop hlacks hx
  · cases h

/-- What describes a statement is read as it. -/
theorem Described.ofDocument_eq_ok {d : Document} {stmt : Statement} (h : Described d stmt) :
    ofDocument d = .ok stmt := by
  rw [ofDocument_eq]
  cases h with
  | assign hx hp hrv =>
    rw [Document.dispatch_at readers 0 (List.forall_mem_nil _) rfl hx]
    exact Place.exact.bind_requireObject.2 ⟨_, hp, Rvalue.exact.bind_requireObject.2 ⟨_, hrv, rfl⟩⟩
  | deinit hlacks hp =>
    obtain ⟨x, hx, hp⟩ := hp
    rw [Document.dispatch_at readers 1 hlacks rfl hx]
    exact map_eq_ok.2 ⟨_, Place.exact.read_eq_ok.2 hp, rfl⟩
  | storageLive hlacks hx => exact Document.dispatch_at readers 2 hlacks rfl hx
  | storageDead hlacks hx => exact Document.dispatch_at readers 3 hlacks rfl hx
  | nop hlacks hx => exact Document.dispatch_at readers 4 hlacks rfl hx

theorem exact : Exact ofDocument Described where
  read_eq_ok := ⟨described_of_ofDocument, Described.ofDocument_eq_ok⟩
  object h := by
    cases h with
    | assign hx _ _ => exact Document.exists_object hx
    | deinit _ h => exact h.object
    | storageLive _ hx => exact Document.exists_object hx
    | storageDead _ hx => exact Document.exists_object hx
    | nop _ hx => exact Document.exists_object hx

end Statement

/-! ### Bodies and crates -/

theorem LocalDecl.exact : Exact ofDocument Described where
  read_eq_ok := by
    intro d decl
    obtain ⟨ty, isMut⟩ := decl
    constructor
    · intro h
      obtain ⟨ty', hty, h⟩ := Ty.exact.bind_requireObject.1 h
      cases h
      exact ⟨hty, rfl⟩
    · rintro ⟨hty, rfl⟩
      exact Ty.exact.bind_requireObject.2 ⟨ty, hty, rfl⟩
  object h := h.ty.object

namespace Body

theorem block_exact : Exact readBlock (·.Lists "statements" Statement.Described) where
  read_eq_ok := by
    intro d block
    constructor
    · intro h
      obtain ⟨ds, hds, h⟩ := bind_eq_ok.1 h
      exact ⟨ds, Document.requireList_eq_ok.1 hds, Statement.exact.readAll_eq_ok.1 h⟩
    · rintro ⟨ds, hds, h⟩
      exact bind_eq_ok.2
        ⟨ds, Document.requireList_eq_ok.2 hds, Statement.exact.readAll_eq_ok.2 h⟩
  object h := h.object

theorem readArgCount_eq_ok {d : Document} {n : Int} : readArgCount d = .ok n ↔
    d.get? "arg_count" = none ∧ n = 0 ∨ d.get? "arg_count" = some (.int n) := by
  unfold readArgCount
  cases d.get? "arg_count" with
  | none => simp [eq_comm]
  | some x => simp [Document.integer_eq_ok]

theorem exact : Exact ofDocument Described where
  read_eq_ok := by
    intro d b
    obtain ⟨blocks, locals, argCount⟩ := b
    constructor
    · intro h
      obtain ⟨blocks', hblocks, h⟩ := block_exact.bind_requireList.1 h
      obtain ⟨locals', hlocals, h⟩ := LocalDecl.exact.bind_requireList.1 h
      obtain ⟨argCount', hcount, h⟩ := bind_eq_ok.1 h
      cases h
      exact ⟨hblocks, hlocals, readArgCount_eq_ok.1 hcount⟩
    · rintro ⟨hblocks, hlocals, hcount⟩
      refine block_exact.bind_requireList.2 ⟨blocks, hblocks, ?_⟩
      refine LocalDecl.exact.bind_requireList.2 ⟨locals, hlocals, ?_⟩
      exact bind_eq_ok.2 ⟨argCount, readArgCount_eq_ok.2 hcount, rfl⟩
  object h := h.blocks.object

end Body

theorem Function.exact : Exact ofDocument Described where
  read_eq_ok := by
    intro d f
    obtain ⟨name, body⟩ := f
    constructor
    · intro h
      obtain ⟨name', hname, h⟩ := bind_eq_ok.1 h
      obtain ⟨body', hbody, h⟩ := Body.exact.bind_requireObject.1 h
      cases h
      exact ⟨Document.requireText_eq_ok.1 hname, hbody⟩
    · rintro ⟨hname, hbody⟩
      refine bind_eq_ok.2 ⟨name, Document.requireText_eq_ok.2 hname, ?_⟩
      exact Body.exact.bind_requireObject.2 ⟨body, hbody, rfl⟩
  object h := h.body.object

/-- **The reader of crates accepts exactly the documents that describe one.** -/
theorem Crate.exact : Exact ofDocument Described where
  read_eq_ok := by
    intro d c
    obtain ⟨name, functions⟩ := c
    constructor
    · intro h
      unfold ofDocument at h
      split at h
      · obtain ⟨functions', hfunctions, h⟩ := Function.exact.bind_requireList.1 h
        cases h
        exact ⟨rfl, hfunctions⟩
      · cases h
    · rintro ⟨rfl, hfunctions⟩
      obtain ⟨ms, rfl⟩ := hfunctions.object
      exact Function.exact.bind_requireList.2 ⟨functions, hfunctions, rfl⟩
  object h := h.functions.object

end MirRange
