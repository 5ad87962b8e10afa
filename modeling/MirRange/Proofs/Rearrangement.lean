import Mathlib.Data.List.Nodup
import Mathlib.Logic.Relation
import MirRange.Proofs.Dispatch
import MirRange.Proofs.RoundTrip

/-!
# Documents in another order

The document of a crate is made of objects of some fifteen kinds.  Each is read by looking up keys,
and some of them by the first key that is present.  So neither the order of the members matters nor
members whose keys are never looked up, in whatever objects of the document and at whatever depth.
Only the wording of a failure may differ, where it shows the document.

* `Node`, `Node.read`: the kinds of objects and what they are read as.
* `Node.slots`: the keys that are looked up in a node, and what is read under each.
* `Edit`, `Rearranged`: one change to the order or to unknown members, and any number of them.
* `outcome`: how reading ends, but for the document that a failure shows.
* `Node.outcome_of_agree`: the outcome depends on what is read under the keys, and on nothing else.
* `Edit.alike`, `Rearranged.outcome_eq`: one change, and any number, leave the outcome as it is.
* `Crate.reading_unchanged`: what follows for crates.
-/

namespace MirRange

variable {α β : Type}

/-! ### Members in another order -/

/-- If no key is repeated, look-ups do not depend on the order. -/
theorem Members.get?_of_perm {ms ms' : Members} (hperm : ms.Perm ms')
    (hkeys : (ms.map Prod.fst).Nodup) (key : String) : ms'.get? key = ms.get? key := by
  induction hperm with
  | nil => rfl
  | cons m _ ih =>
    obtain ⟨k, d⟩ := m
    rw [get?, get?, ih (List.nodup_cons.1 hkeys).2]
  | swap m m' ms =>
    obtain ⟨k, d⟩ := m
    obtain ⟨k', d'⟩ := m'
    have hne : k' ≠ k := fun h => (List.nodup_cons.1 hkeys).1 (by simp [h])
    simp only [get?]
    split
    · rename_i hk
      rw [if_neg fun hk' => hne (hk'.trans hk.symm)]
    · rfl
  | trans hperm _ ih ih' =>
    rw [ih' ((hperm.map Prod.fst).nodup_iff.1 hkeys), ih hkeys]

/-! ### Nodes -/

/-- The kinds of objects that the document of a crate is made of. -/
inductive Node where
  | crate
  | function
  | body
  | block
  | declaration
  | type
  | place
  | projection
  | operand
  | constant
  | rvalue
  | ref
  | cast
  | statement
  | assign

/-- What is read under a key of a node. -/
inductive Slot where
  /-- Data that is taken as it is. -/
  | data
  | node (k : Node)
  /-- A list of nodes. -/
  | nodes (k : Node)
  /-- A list of an operator and its operands. -/
  | operation

/-- Keys of which the first one that is present decides: those after it are not looked up. -/
def Document.upTo (d : Document) : List (String × Slot) → List (String × Slot)
  | [] => []
  | (key, slot) :: rest => (key, slot) :: if (d.get? key).isSome then [] else upTo d rest

namespace Node

/-- The keys that are looked up for a kind of type, besides the kind. -/
def typeSlots (kind : String) : List (String × Slot) :=
  if kind = "int" ∨ kind = "uint" ∨ kind = "float" then [("bits", .data)]
  else if kind = "tuple" then [("fields", .nodes .type)]
  else if kind = "ref" then [("pointee", .node .type), ("mutable", .data)]
  else if kind = "adt" then [("name", .data)]
  else []

/-- The keys that are looked up in a node, and what is read under them. -/
def slots (d : Document) : Node → List (String × Slot)
  | .crate => [("functions", .nodes .function), ("crate", .data)]
  | .function => [("name", .data), ("body", .node .body)]
  | .body => [("blocks", .nodes .block), ("locals", .nodes .declaration), ("arg_count", .data)]
  | .block => [("statements", .nodes .statement)]
  | .declaration => [("ty", .node .type), ("mutable", .data)]
  | .type =>
    ("kind", .data) ::
      match d.get? "kind" with
      | some (.text kind) => typeSlots kind
      | _ => []
  | .place => [("local", .data), ("projection", .nodes .projection)]
  | .projection => d.upTo [("field", .data), ("index", .data), ("deref", .data)]
  | .operand =>
    d.upTo [("copy", .node .place), ("move", .node .place), ("const", .node .constant)]
  | .constant => [("kind", .data), ("bytes", .data), ("ty", .node .type)]
  | .rvalue =>
    d.upTo [("use", .node .operand), ("binary_op", .operation), ("checked_binary_op", .operation),
      ("unary_op", .operation), ("ref", .node .ref), ("aggregate", .nodes .operand),
      ("cast", .node .cast)]
  | .ref => [("place", .node .place), ("mutable", .data)]
  | .cast => [("operand", .node .operand), ("ty", .node .type)]
  | .statement =>
    d.upTo [("assign", .node .assign), ("deinit", .node .place), ("storage_live", .data),
      ("storage_dead", .data), ("nop", .data)]
  | .assign => [("place", .node .place), ("rvalue", .node .rvalue)]

/-- What a node is read as. -/
def Part : Node → Type
  | .crate => Crate
  | .function => Function
  | .body => Body
  | .block => List Statement
  | .declaration => LocalDecl
  | .type => Ty
  | .place => Place
  | .projection => Projection
  | .operand => Operand
  | .constant => Const
  | .rvalue => Rvalue
  | .ref => Rvalue
  | .cast => Rvalue
  | .statement => Statement
  | .assign => Statement

/-- How a node is read. -/
def read : (k : Node) → Document → Except Malformed k.Part
  | .crate => Crate.ofDocument
  | .function => Function.ofDocument
  | .body => Body.ofDocument
  | .block => Body.readBlock
  | .declaration => LocalDecl.ofDocument
  | .type => Ty.ofDocument
  | .place => Place.ofDocument
  | .projection => Projection.ofDocument
  | .operand => Operand.ofDocument
  | .constant => Const.ofDocument
  | .rvalue => Rvalue.ofDocument
  | .ref => Rvalue.readRef
  | .cast => Rvalue.readCast
  | .statement => Statement.ofDocument
  | .assign => Statement.readAssign

end Node

/-! ### Edits -/

/-- One change to a document that is read as a slot says: in one of its nodes the members are put in
another order, or a member is added, or replaced, whose key is not looked up there. -/
inductive Edit : Slot → Document → Document → Prop
  | permute {k : Node} {ms ms' : Members} : (ms.map Prod.fst).Nodup → ms.Perm ms' →
      Edit (.node k) (.object ms) (.object ms')
  | add {k : Node} {ms : Members} {key : String} {x : Document} :
      key ∉ (k.slots (.object ms)).map Prod.fst →
      Edit (.node k) (.object ms) (.object (ms.put key x))
  | member {k : Node} {ms : Members} {key : String} {slot : Slot} {x x' : Document} :
      (key, slot) ∈ k.slots (.object ms) → ms.get? key = some x → Edit slot x x' →
      Edit (.node k) (.object ms) (.object (ms.put key x'))
  | item {k : Node} {before after : List Document} {d d' : Document} : Edit (.node k) d d' →
      Edit (.nodes k) (.list (before ++ d :: after)) (.list (before ++ d' :: after))
  | operand {op : Document} {before after : List Document} {d d' : Document} :
      Edit (.node .operand) d d' →
      Edit .operation (.list (op :: (before ++ d :: after))) (.list (op :: (before ++ d' :: after)))

/-- Any number of changes to a document that is read as a node. -/
def Rearranged (k : Node) : Document → Document → Prop :=
  Relation.ReflTransGen (Edit (.node k))

/-! ### Outcomes -/

namespace Malformed

/-- A cause without the document that it shows. -/
def outline : Malformed → Malformed
  | value _ => value .null
  | truth _ => truth .null
  | pair _ => pair .null
  | bound _ => bound .null
  | inverted _ => inverted .null
  | type _ => type .null
  | width _ => width .null
  | fields _ => fields .null
  | notInteger key _ => notInteger key .null
  | projection _ => projection .null
  | projectionElement _ => projectionElement .null
  | operand _ => operand .null
  | constKind _ => constKind .null
  | constBytes _ => constBytes .null
  | listed what _ => listed what .null
  | binaryOperator _ => binaryOperator .null
  | unaryOperator _ => unaryOperator .null
  | rvalue _ => rvalue .null
  | statement _ => statement .null
  | m => m

/-- Only the message of a problem shows a document. -/
theorem problem_outline (m : Malformed) :
    m.outline.problem.kind = m.problem.kind ∧ m.outline.problem.details = m.problem.details := by
  cases m <;> exact ⟨rfl, rfl⟩

end Malformed

/-- How reading ends, but for the document that a failure shows. -/
def outcome (x : Except Malformed α) : Except Malformed α :=
  x.mapError Malformed.outline

theorem outcome_eq_ok {x : Except Malformed α} {a : α} : outcome x = .ok a ↔ x = .ok a :=
  mapError_eq_ok

theorem outcome_bind {x y : Except Malformed α} {f g : α → Except Malformed β}
    (hxy : outcome x = outcome y) (hfg : ∀ a, outcome (f a) = outcome (g a)) :
    outcome (x >>= f) = outcome (y >>= g) := by
  have hsplit : ∀ (z : Except Malformed α) (h : α → Except Malformed β),
      outcome (z >>= h) = outcome z >>= fun a => outcome (h a) := by
    intro z h
    cases z <;> rfl
  rw [hsplit, hsplit, hxy]
  exact congrArg (outcome y >>= ·) (funext hfg)

theorem outcome_map {x y : Except Malformed α} (hxy : outcome x = outcome y) (f : α → β) :
    outcome (x.map f) = outcome (y.map f) := by
  have hsplit : ∀ z : Except Malformed α, outcome (z.map f) = (outcome z).map f := by
    intro z
    cases z <;> rfl
  rw [hsplit, hsplit, hxy]

/-- Two documents are read alike: they are the same, or objects that are read with one outcome. -/
def Alike (read : Document → Except Malformed α) (d d' : Document) : Prop :=
  d = d' ∨ ∃ ms ms', d = .object ms ∧ d' = .object ms' ∧ outcome (read d) = outcome (read d')

namespace Alike

variable {read : Document → Except Malformed α} {d d' : Document}

theorem outcome_eq (h : Alike read d d') : outcome (read d) = outcome (read d') := by
  rcases h with rfl | ⟨_, _, _, _, h⟩
  · rfl
  · exact h

theorem outcome_readAll {ds ds' : List Document} (h : List.Forall₂ (Alike read) ds ds') :
    outcome (readAll read ds) = outcome (readAll read ds') := by
  induction h with
  | nil => rfl
  | cons hd _ ih => exact outcome_bind hd.outcome_eq fun a => outcome_bind ih fun as => rfl

end Alike

/-- Two lists of documents are read alike, item by item. -/
def Alikes (read : Document → Except Malformed α) (d d' : Document) : Prop :=
  d = d' ∨ ∃ ds ds', d = .list ds ∧ d' = .list ds' ∧ List.Forall₂ (Alike read) ds ds'

/-- Two lists of an operator and operands are read alike. -/
def OperationAlike (d d' : Document) : Prop :=
  d = d' ∨ ∃ op ds ds', d = .list (op :: ds) ∧ d' = .list (op :: ds') ∧
    List.Forall₂ (Alike Operand.ofDocument) ds ds'

/-- Two documents are read alike as a slot says. -/
def Slot.Alike : Slot → Document → Document → Prop
  | .data => Eq
  | .node k => MirRange.Alike k.read
  | .nodes k => Alikes k.read
  | .operation => OperationAlike

theorem Slot.alike_refl (slot : Slot) (d : Document) : slot.Alike d d := by
  cases slot with
  | data => exact rfl
  | node k => exact .inl rfl
  | nodes k => exact .inl rfl
  | operation => exact .inl rfl

theorem Slot.outcome_of_data (read : Document → Except Malformed α) (x x' : Document)
    (h : Slot.data.Alike x x') : outcome (read x) = outcome (read x') :=
  congrArg (outcome <| read ·) h

/-! ### Documents that agree on keys -/

namespace Document

/-- Two documents agree on some keys: the same ones are present, and what stands under them is read
alike. -/
def AgreeOn (slots : List (String × Slot)) (d d' : Document) : Prop :=
  ∀ s ∈ slots, Option.Rel s.2.Alike (d.get? s.1) (d'.get? s.1)

variable {d d' : Document} {key : String} {slot : Slot} {rest : List (String × Slot)}

theorem agreeOn_cons : AgreeOn ((key, slot) :: rest) d d' ↔
    Option.Rel slot.Alike (d.get? key) (d'.get? key) ∧ AgreeOn rest d d' :=
  List.forall_mem_cons

theorem rel_of_get?_eq (h : d'.get? key = d.get? key) :
    Option.Rel slot.Alike (d.get? key) (d'.get? key) := by
  rw [h]
  cases d.get? key with
  | none => exact .none
  | some x => exact .some (slot.alike_refl x)

theorem get?_eq_of_rel (h : Option.Rel (Slot.Alike .data) (d.get? key) (d'.get? key)) :
    d'.get? key = d.get? key := by
  generalize d.get? key = x at h
  generalize d'.get? key = x' at h
  cases h with
  | none => rfl
  | some heq => exact congrArg some heq.symm

/-- Where the first key that is present decides, it is the same one in both, or there is none. -/
theorem AgreeOn.first (h : AgreeOn (d.upTo ((key, slot) :: rest)) d d') :
    (∃ x x', d.get? key = some x ∧ d'.get? key = some x' ∧ slot.Alike x x') ∨
      d.get? key = none ∧ d'.get? key = none ∧ AgreeOn (d.upTo rest) d d' := by
  rw [upTo] at h
  obtain ⟨hkey, hrest⟩ := agreeOn_cons.1 h
  generalize hx : d.get? key = x at hkey hrest
  generalize hx' : d'.get? key = x' at hkey
  cases hkey with
  | some hxx' => exact .inl ⟨_, _, rfl, rfl, hxx'⟩
  | none => exact .inr ⟨rfl, rfl, hrest⟩

/-! ### Keys that are read alike -/

variable {read : Document → Except Malformed α}

theorem outcome_bind_requireObject {f g : α → Except Malformed β}
    (h : Option.Rel (Alike read) (d.get? key) (d'.get? key))
    (hfg : ∀ a, outcome (f a) = outcome (g a)) :
    outcome (do f (← read (← d.requireObject key))) =
      outcome (do g (← read (← d'.requireObject key))) := by
  unfold requireObject require
  generalize d.get? key = x at h
  generalize d'.get? key = x' at h
  cases h with
  | none => rfl
  | some hxx' =>
    rcases hxx' with rfl | ⟨ms, ms', rfl, rfl, hread⟩
    · exact outcome_bind rfl fun v => outcome_bind rfl hfg
    · show outcome (read (.object ms) >>= f) = outcome (read (.object ms') >>= g)
      exact outcome_bind hread hfg

theorem outcome_bind_requireList {f g : List α → Except Malformed β}
    (h : Option.Rel (Alikes read) (d.get? key) (d'.get? key))
    (hfg : ∀ as, outcome (f as) = outcome (g as)) :
    outcome (do f (← readAll read (← d.requireList key))) =
      outcome (do g (← readAll read (← d'.requireList key))) := by
  unfold requireList require
  generalize d.get? key = x at h
  generalize d'.get? key = x' at h
  cases h with
  | none => rfl
  | some hxx' =>
    rcases hxx' with rfl | ⟨ds, ds', rfl, rfl, hds⟩
    · exact outcome_bind rfl fun v => outcome_bind rfl hfg
    · show outcome (readAll read ds >>= f) = outcome (readAll read ds' >>= g)
      exact outcome_bind (Alike.outcome_readAll hds) hfg

/-- Reading by the first key that is present has one outcome if what is read under each key has. -/
theorem AgreeOn.outcome_dispatch {other other' : Malformed} {slots : List (String × Slot)}
    {readers : List (String × (Document → Except Malformed α))} (h : AgreeOn (d.upTo slots) d d')
    (hother : other.outline = other'.outline)
    (hreaders : List.Forall₂ (fun s r => s.1 = r.1 ∧
      ∀ x x', s.2.Alike x x' → outcome (r.2 x) = outcome (r.2 x')) slots readers) :
    outcome (d.dispatch other readers) = outcome (d'.dispatch other' readers) := by
  induction hreaders with
  | nil => exact congrArg Except.error hother
  | @cons s r _ _ hhead _ ih =>
    obtain ⟨key, slot⟩ := s
    obtain ⟨_, read⟩ := r
    obtain ⟨rfl, hread⟩ := hhead
    rcases h.first with ⟨x, x', hx, hx', hxx'⟩ | ⟨hx, hx', hrest⟩
    · rw [dispatch_of_some hx, dispatch_of_some hx']
      exact hread x x' hxx'
    · rw [dispatch_of_none hx, dispatch_of_none hx']
      exact ih hrest

end Document

/-! ### One lemma for each kind of node -/

namespace Node

open Document

variable {d d' : Document}

theorem outcome_readKind {kind : String} (h : AgreeOn (typeSlots kind) d d') :
    outcome (Ty.readKind d kind) = outcome (Ty.readKind d' kind) := by
  have hwidth (hbits : kind = "int" ∨ kind = "uint" ∨ kind = "float") :
      Ty.readWidth d' = Ty.readWidth d := by
    rw [typeSlots, if_pos hbits] at h
    rw [Ty.readWidth, get?_eq_of_rel (agreeOn_cons.1 h).1, Ty.readWidth]
  unfold Ty.readKind
  split
  · rfl
  split
  · rename_i hint
    rw [hwidth (.inl hint)]
  split
  · rename_i huint
    rw [hwidth (.inr (.inl huint))]
  split
  · rename_i hfloat
    rw [hwidth (.inr (.inr hfloat))]
  rename_i hint huint hfloat
  rw [typeSlots, if_neg (by simp [hint, huint, hfloat])] at h
  split
  · rename_i htuple
    rw [if_pos htuple] at h
    have hfields := (agreeOn_cons.1 h).1
    generalize d.get? "fields" = x at hfields
    generalize d'.get? "fields" = x' at hfields
    cases hfields with
    | none => rfl
    | some hxx' =>
      rcases hxx' with rfl | ⟨ds, ds', rfl, rfl, hds⟩
      · rfl
      · exact outcome_map (Alike.outcome_readAll hds) _
  rename_i htuple
  rw [if_neg htuple] at h
  split
  · rename_i href
    rw [if_pos href] at h
    obtain ⟨hpointee, h⟩ := agreeOn_cons.1 h
    rw [flag, flag, get?_eq_of_rel (agreeOn_cons.1 h).1]
    generalize d.get? "pointee" = x at hpointee
    generalize d'.get? "pointee" = x' at hpointee
    cases hpointee with
    | none => rfl
    | some hxx' => exact outcome_map hxx'.outcome_eq _
  rename_i href
  rw [if_neg href] at h
  split
  · rename_i hadt
    rw [if_pos hadt] at h
    rw [get?_eq_of_rel (agreeOn_cons.1 h).1]
  rfl

theorem outcome_type (h : AgreeOn (type.slots d) d d') :
    outcome (Ty.ofDocument d) = outcome (Ty.ofDocument d') := by
  obtain ⟨hkind, h⟩ := agreeOn_cons.1 h
  have hkind := get?_eq_of_rel hkind
  by_cases htext : ∃ kind, d.get? "kind" = some (.text kind)
  · obtain ⟨kind, htext⟩ := htext
    rw [Ty.ofDocument_of_kind htext, Ty.ofDocument_of_kind (hkind.trans htext)]
    simp only [htext] at h
    exact outcome_readKind h
  · have hno : ∀ kind, d.get? "kind" ≠ some (.text kind) := fun kind hk => htext ⟨kind, hk⟩
    have hno' : ∀ kind, d'.get? "kind" ≠ some (.text kind) := by
      rw [hkind]
      exact hno
    rw [Ty.ofDocument_of_no_kind hno, Ty.ofDocument_of_no_kind hno']
    rfl

theorem outcome_projection (h : AgreeOn (projection.slots d) d d') :
    outcome (Projection.ofDocument d) = outcome (Projection.ofDocument d') := by
  rw [Projection.ofDocument_eq, Projection.ofDocument_eq]
  exact AgreeOn.outcome_dispatch h rfl (.cons ⟨rfl, Slot.outcome_of_data _⟩
    (.cons ⟨rfl, Slot.outcome_of_data _⟩ (.cons ⟨rfl, Slot.outcome_of_data _⟩ .nil)))

theorem outcome_place (h : AgreeOn (place.slots d) d d') :
    outcome (Place.ofDocument d) = outcome (Place.ofDocument d') := by
  obtain ⟨hlocal, h⟩ := agreeOn_cons.1 h
  obtain ⟨hpath, -⟩ := agreeOn_cons.1 h
  have hbase : d'.requireInteger "local" = d.requireInteger "local" := by
    rw [requireInteger, require, get?_eq_of_rel hlocal, requireInteger, require]
  unfold Place.ofDocument
  rw [hbase]
  refine outcome_bind rfl fun base => ?_
  generalize d.get? "projection" = x at hpath
  generalize d'.get? "projection" = x' at hpath
  cases hpath with
  | none => rfl
  | some hxx' =>
    rcases hxx' with rfl | ⟨ds, ds', rfl, rfl, hds⟩
    · rfl
    · exact outcome_bind (Alike.outcome_readAll hds) fun path => rfl

theorem outcome_constant (h : AgreeOn (constant.slots d) d d') :
    outcome (Const.ofDocument d) = outcome (Const.ofDocument d') := by
  obtain ⟨hkind, h⟩ := agreeOn_cons.1 h
  obtain ⟨hbytes, h⟩ := agreeOn_cons.1 h
  obtain ⟨hty, -⟩ := agreeOn_cons.1 h
  have hkind : ConstKind.ofDocument d' = ConstKind.ofDocument d := by
    rw [ConstKind.ofDocument, get?_eq_of_rel hkind, ConstKind.ofDocument]
  have hbytes : Const.readBytes d' = Const.readBytes d := by
    rw [Const.readBytes, get?_eq_of_rel hbytes, Const.readBytes]
  unfold Const.ofDocument
  rw [hkind, hbytes]
  exact outcome_bind rfl fun kind => outcome_bind rfl fun bytes =>
    outcome_bind_requireObject hty fun ty => rfl

theorem outcome_operand (h : AgreeOn (operand.slots d) d d') :
    outcome (Operand.ofDocument d) = outcome (Operand.ofDocument d') := by
  have hconst : ∀ x x', Alike Const.ofDocument x x' →
      outcome (Operand.readConst x) = outcome (Operand.readConst x') := by
    rintro x x' (rfl | ⟨ms, ms', rfl, rfl, hread⟩)
    · rfl
    · exact outcome_map hread _
  rw [Operand.ofDocument_eq, Operand.ofDocument_eq]
  refine AgreeOn.outcome_dispatch h rfl
    (.cons ⟨rfl, ?_⟩ (.cons ⟨rfl, ?_⟩ (.cons ⟨rfl, hconst⟩ .nil)))
  · exact fun x x' hplace => outcome_map hplace.outcome_eq _
  · exact fun x x' hplace => outcome_map hplace.outcome_eq _

theorem outcome_readBinary (what : Listed) {x x' : Document} (h : OperationAlike x x') :
    outcome (Rvalue.readBinary what x) = outcome (Rvalue.readBinary what x') := by
  rcases h with rfl | ⟨op, ds, ds', rfl, rfl, hds⟩
  · rfl
  · cases hds with
    | nil => rfl
    | cons hl hds =>
      cases hds with
      | nil => rfl
      | cons hr hds =>
        cases hds with
        | nil =>
          exact outcome_bind rfl fun op => outcome_bind hl.outcome_eq fun l =>
            outcome_bind hr.outcome_eq fun r => rfl
        | cons _ _ => rfl

theorem outcome_readUnary {x x' : Document} (h : OperationAlike x x') :
    outcome (Rvalue.readUnary x) = outcome (Rvalue.readUnary x') := by
  rcases h with rfl | ⟨op, ds, ds', rfl, rfl, hds⟩
  · rfl
  · cases hds with
    | nil => rfl
    | cons hx hds =>
      cases hds with
      | nil => exact outcome_bind rfl fun op => outcome_bind hx.outcome_eq fun x => rfl
      | cons _ _ => rfl

theorem outcome_readAggregate {x x' : Document} (h : Alikes Operand.ofDocument x x') :
    outcome (Rvalue.readAggregate x) = outcome (Rvalue.readAggregate x') := by
  rcases h with rfl | ⟨ds, ds', rfl, rfl, hds⟩
  · rfl
  · exact outcome_map (Alike.outcome_readAll hds) _

theorem outcome_rvalue (h : AgreeOn (rvalue.slots d) d d') :
    outcome (Rvalue.ofDocument d) = outcome (Rvalue.ofDocument d') := by
  rw [Rvalue.ofDocument_eq, Rvalue.ofDocument_eq]
  refine AgreeOn.outcome_dispatch h rfl (.cons ⟨rfl, ?_⟩ (.cons ⟨rfl, ?_⟩ (.cons ⟨rfl, ?_⟩
    (.cons ⟨rfl, ?_⟩ (.cons ⟨rfl, ?_⟩ (.cons ⟨rfl, ?_⟩ (.cons ⟨rfl, ?_⟩ .nil)))))))
  · exact fun x x' hx => outcome_map hx.outcome_eq _
  · exact fun x x' hx => outcome_map (outcome_readBinary .binary hx) _
  · exact fun x x' hx => outcome_map (outcome_readBinary .checked hx) _
  · exact fun x x' hx => outcome_map (outcome_readUnary hx) _
  · exact fun x x' hx => hx.outcome_eq
  · exact fun x x' hx => outcome_readAggregate hx
  · exact fun x x' hx => hx.outcome_eq

theorem outcome_ref (h : AgreeOn (ref.slots d) d d') :
    outcome (Rvalue.readRef d) = outcome (Rvalue.readRef d') := by
  obtain ⟨hplace, h⟩ := agreeOn_cons.1 h
  obtain ⟨hmut, -⟩ := agreeOn_cons.1 h
  unfold Rvalue.readRef
  rw [flag, flag, get?_eq_of_rel hmut]
  exact outcome_bind_requireObject hplace fun place => rfl

theorem outcome_cast (h : AgreeOn (cast.slots d) d d') :
    outcome (Rvalue.readCast d) = outcome (Rvalue.readCast d') := by
  obtain ⟨hoperand, h⟩ := agreeOn_cons.1 h
  obtain ⟨hty, -⟩ := agreeOn_cons.1 h
  exact outcome_bind_requireObject hoperand fun x => outcome_bind_requireObject hty fun ty => rfl

theorem outcome_statement (h : AgreeOn (statement.slots d) d d') :
    outcome (Statement.ofDocument d) = outcome (Statement.ofDocument d') := by
  rw [Statement.ofDocument_eq, Statement.ofDocument_eq]
  refine AgreeOn.outcome_dispatch h rfl (.cons ⟨rfl, ?_⟩ (.cons ⟨rfl, ?_⟩
    (.cons ⟨rfl, Slot.outcome_of_data _⟩ (.cons ⟨rfl, Slot.outcome_of_data _⟩
      (.cons ⟨rfl, Slot.outcome_of_data _⟩ .nil)))))
  · exact fun x x' hx => hx.outcome_eq
  · exact fun x x' hx => outcome_map hx.outcome_eq _

theorem outcome_assign (h : AgreeOn (assign.slots d) d d') :
    outcome (Statement.readAssign d) = outcome (Statement.readAssign d') := by
  obtain ⟨hplace, h⟩ := agreeOn_cons.1 h
  obtain ⟨hvalue, -⟩ := agreeOn_cons.1 h
  exact outcome_bind_requireObject hplace fun place =>
    outcome_bind_requireObject hvalue fun value => rfl

theorem outcome_declaration (h : AgreeOn (declaration.slots d) d d') :
    outcome (LocalDecl.ofDocument d) = outcome (LocalDecl.ofDocument d') := by
  obtain ⟨hty, h⟩ := agreeOn_cons.1 h
  obtain ⟨hmut, -⟩ := agreeOn_cons.1 h
  unfold LocalDecl.ofDocument
  rw [flag, flag, get?_eq_of_rel hmut]
  exact outcome_bind_requireObject hty fun ty => rfl

theorem outcome_block (h : AgreeOn (block.slots d) d d') :
    outcome (Body.readBlock d) = outcome (Body.readBlock d') := by
  obtain ⟨hstatements, -⟩ := agreeOn_cons.1 h
  have hread := outcome_bind_requireList (f := pure) (g := pure) hstatements fun statements => rfl
  simp only [bind_pure] at hread
  exact hread

theorem outcome_body (h : AgreeOn (body.slots d) d d') :
    outcome (Body.ofDocument d) = outcome (Body.ofDocument d') := by
  obtain ⟨hblocks, h⟩ := agreeOn_cons.1 h
  obtain ⟨hlocals, h⟩ := agreeOn_cons.1 h
  obtain ⟨hcount, -⟩ := agreeOn_cons.1 h
  have hcount : Body.readArgCount d' = Body.readArgCount d := by
    rw [Body.readArgCount, get?_eq_of_rel hcount, Body.readArgCount]
  unfold Body.ofDocument
  rw [hcount]
  exact outcome_bind_requireList hblocks fun blocks =>
    outcome_bind_requireList hlocals fun locals => rfl

theorem outcome_function (h : AgreeOn (function.slots d) d d') :
    outcome (Function.ofDocument d) = outcome (Function.ofDocument d') := by
  obtain ⟨hname, h⟩ := agreeOn_cons.1 h
  obtain ⟨hbody, -⟩ := agreeOn_cons.1 h
  have hname : d'.requireText "name" = d.requireText "name" := by
    rw [requireText, require, get?_eq_of_rel hname, requireText, require]
  unfold Function.ofDocument
  rw [hname]
  exact outcome_bind rfl fun name => outcome_bind_requireObject hbody fun body => rfl

theorem outcome_crate {ms ms' : Members}
    (h : AgreeOn (crate.slots (.object ms)) (.object ms) (.object ms')) :
    outcome (Crate.ofDocument (.object ms)) = outcome (Crate.ofDocument (.object ms')) := by
  obtain ⟨hfunctions, h⟩ := agreeOn_cons.1 h
  obtain ⟨hname, -⟩ := agreeOn_cons.1 h
  simp only [Crate.ofDocument]
  rw [get?_eq_of_rel hname]
  exact outcome_bind_requireList hfunctions fun functions => rfl

/-- **What is read depends on what is read under the keys of a node, and on nothing else.** -/
theorem outcome_of_agree (k : Node) {ms ms' : Members}
    (h : AgreeOn (k.slots (.object ms)) (.object ms) (.object ms')) :
    outcome (k.read (.object ms)) = outcome (k.read (.object ms')) := by
  cases k with
  | crate => exact outcome_crate h
  | function => exact outcome_function h
  | body => exact outcome_body h
  | block => exact outcome_block h
  | declaration => exact outcome_declaration h
  | type => exact outcome_type h
  | place => exact outcome_place h
  | projection => exact outcome_projection h
  | operand => exact outcome_operand h
  | constant => exact outcome_constant h
  | rvalue => exact outcome_rvalue h
  | ref => exact outcome_ref h
  | cast => exact outcome_cast h
  | statement => exact outcome_statement h
  | assign => exact outcome_assign h

theorem upTo_sublist (d : Document) (slots : List (String × Slot)) :
    (d.upTo slots).Sublist slots := by
  induction slots with
  | nil => exact .slnil
  | cons s rest ih =>
    obtain ⟨key, slot⟩ := s
    rw [Document.upTo]
    split
    · exact (List.nil_sublist _).cons_cons _
    · exact ih.cons_cons _

/-- No key stands for two slots. -/
theorem nodup_slots (k : Node) (d : Document) : ((k.slots d).map Prod.fst).Nodup := by
  have hupTo : ∀ slots : List (String × Slot), (slots.map Prod.fst).Nodup →
      ((d.upTo slots).map Prod.fst).Nodup :=
    fun slots h => h.sublist ((upTo_sublist d slots).map Prod.fst)
  cases k with
  | type =>
    have hkind : ∀ kind, ((("kind", Slot.data) :: typeSlots kind).map Prod.fst).Nodup := by
      intro kind
      unfold typeSlots
      repeat
        split
        · simp
      simp
    rw [slots]
    split
    · exact hkind _
    · simp
  | projection => exact hupTo _ (by simp)
  | operand => exact hupTo _ (by simp)
  | rvalue => exact hupTo _ (by simp)
  | statement => exact hupTo _ (by simp)
  | _ => simp [slots]

end Node

/-! ### Edits leave the outcome as it is -/

theorem forall₂_alike_replace {read : Document → Except Malformed α} {d d' : Document}
    (h : Alike read d d') (before after : List Document) :
    List.Forall₂ (Alike read) (before ++ d :: after) (before ++ d' :: after) := by
  have hrefl : ∀ ds : List Document, List.Forall₂ (Alike read) ds ds :=
    fun ds => List.forall₂_same.2 fun d _ => .inl rfl
  exact List.rel_append (hrefl before) (.cons h (hrefl after))

/-- **One change leaves what is read as it is.**  The induction is on the place of the change: at
the node itself no look-up notices it, and above it every look-up leads to what is read alike. -/
theorem Edit.alike {slot : Slot} {d d' : Document} (h : Edit slot d d') : slot.Alike d d' := by
  induction h with
  | @permute k ms ms' hkeys hperm =>
    refine .inr ⟨ms, ms', rfl, rfl, k.outcome_of_agree fun s _ => ?_⟩
    exact Document.rel_of_get?_eq (Members.get?_of_perm hperm hkeys s.1)
  | @add k ms key x hkey =>
    refine .inr ⟨ms, _, rfl, rfl, k.outcome_of_agree fun s hs => ?_⟩
    have hne : key ≠ s.1 := fun heq => hkey (heq ▸ List.mem_map_of_mem hs)
    exact Document.rel_of_get?_eq (Members.get?_put_of_ne ms x hne)
  | @member k ms key slot x x' hslot hx _ ih =>
    refine .inr ⟨ms, _, rfl, rfl, k.outcome_of_agree fun s hs => ?_⟩
    by_cases hkey : key = s.1
    · have hs' : s = (key, slot) := List.inj_on_of_nodup_map (k.nodup_slots _) hs hslot hkey.symm
      have hget : (Document.object (ms.put key x')).get? key = some x' :=
        Members.get?_put_self ms key x'
      have hget' : (Document.object ms).get? key = some x := hx
      rw [hs', hget, hget']
      exact .some ih
    · exact Document.rel_of_get?_eq (Members.get?_put_of_ne ms x' hkey)
  | item _ ih => exact .inr ⟨_, _, rfl, rfl, forall₂_alike_replace ih _ _⟩
  | operand _ ih => exact .inr ⟨_, _, _, rfl, rfl, forall₂_alike_replace ih _ _⟩

/-- **Any number of changes leaves what is read as it is.** -/
theorem Rearranged.outcome_eq {k : Node} {d d' : Document} (h : Rearranged k d d') :
    outcome (k.read d) = outcome (k.read d') := by
  induction h with
  | refl => rfl
  | tail _ hedit ih => exact ih.trans (Alike.outcome_eq hedit.alike)

namespace Crate

/-- **Reading a crate takes no notice of the order of members and of unknown ones.**

Let a document be changed in any number of its objects, at any depth, by putting members in another
order or by adding ones whose keys are not looked up there.

* It is read as a crate exactly if it was read before, and as the same one.
* If it was refused it still is, and for the same cause: only the document that the message shows
  may differ, while the kind of the problem and its details do not. -/
theorem reading_unchanged {d d' : Document} (h : Rearranged .crate d d') :
    (∀ c, ofDocument d' = .ok c ↔ ofDocument d = .ok c) ∧
    (∀ m, ofDocument d = .error m → ∃ m', ofDocument d' = .error m' ∧ m'.outline = m.outline ∧
      m'.problem.kind = m.problem.kind ∧ m'.problem.details = m.problem.details) ∧
    ∀ m', ofDocument d' = .error m' → ∃ m, ofDocument d = .error m ∧ m'.outline = m.outline := by
  have hread : outcome (ofDocument d) = outcome (ofDocument d') := h.outcome_eq
  have herror : ∀ {x y : Except Malformed Crate} {m : Malformed}, outcome x = outcome y →
      x = .error m → ∃ m', y = .error m' ∧ m'.outline = m.outline := by
    intro x y m hxy hx
    rw [hx] at hxy
    obtain ⟨m', hm', houtline⟩ := mapError_eq_error.1 hxy.symm
    exact ⟨m', hm', houtline⟩
  refine ⟨fun c => ?_, fun m hm => ?_, fun m' hm' => ?_⟩
  · rw [← outcome_eq_ok, ← hread, outcome_eq_ok]
  · obtain ⟨m', hm', houtline⟩ := herror hread hm
    have hproblem := m'.problem_outline
    rw [houtline] at hproblem
    exact ⟨m', hm', houtline, hproblem.1.symm.trans m.problem_outline.1,
      hproblem.2.symm.trans m.problem_outline.2⟩
  · obtain ⟨m, hm, houtline⟩ := herror hread.symm hm'
    exact ⟨m, hm, houtline.symm⟩

/-- A crate of one function, which adds 1 to its argument. -/
def increment : Crate where
  name := "counters"
  functions := [
    { name := "increment"
      body := {
        blocks := [[.assign ⟨0, []⟩
          (.binary .add (.copy ⟨1, []⟩) (.const ⟨.int 8, [some 1], .allocated⟩))]]
        locals := [⟨.int 8, false⟩, ⟨.int 8, true⟩]
        argCount := 1 } }]

/-- Documents of this crate: they differ in what is noted on the function, in how the argument is
used, and in how its type is described. -/
def incrementDocument (note : Members) (use ty : Document) : Document :=
  let int8 : Document := .object [("kind", .text "int"), ("bits", .int 8)]
  let one : Document := .object [("const",
    .object [("ty", int8), ("bytes", .list [.int 1]), ("kind", .text "allocated")])]
  let sum : Document := .object [("binary_op", .list [.text "Add", use, one])]
  let statement : Document :=
    .object [("assign", .object [("place", .object [("local", .int 0)]), ("rvalue", sum)])]
  let body : Document := .object [("arg_count", .int 1),
    ("locals", .list [.object [("ty", int8)], .object [("ty", ty), ("mutable", .bool true)]]),
    ("blocks", .list [.object [("statements", .list [statement])]])]
  .object [
    ("functions", .list [.object ([("name", .text "increment"), ("body", body)] ++ note)]),
    ("crate", .text "counters")]

theorem incrementDocument_use {note : Members} {use use' ty : Document}
    (h : Edit (.node .operand) use use') :
    Edit (.node .crate) (incrementDocument note use ty) (incrementDocument note use' ty) := by
  refine @Edit.member _ _ "functions" _ _ _ (.head _) rfl (@Edit.item _ [] [] _ _ ?_)
  refine @Edit.member _ _ "body" _ _ _ (.tail _ (.head _)) rfl ?_
  refine @Edit.member _ _ "blocks" _ _ _ (.head _) rfl (@Edit.item _ [] [] _ _ ?_)
  refine @Edit.member _ _ "statements" _ _ _ (.head _) rfl (@Edit.item _ [] [] _ _ ?_)
  refine @Edit.member _ _ "assign" _ _ _ (.head _) rfl ?_
  refine @Edit.member _ _ "rvalue" _ _ _ (.tail _ (.head _)) rfl ?_
  exact @Edit.member _ _ "binary_op" _ _ _ (.tail _ (.head _)) rfl (@Edit.operand _ [] _ _ _ h)

theorem incrementDocument_ty {note : Members} {use ty ty' : Document}
    (h : Edit (.node .type) ty ty') :
    Edit (.node .crate) (incrementDocument note use ty) (incrementDocument note use ty') := by
  refine @Edit.member _ _ "functions" _ _ _ (.head _) rfl (@Edit.item _ [] [] _ _ ?_)
  refine @Edit.member _ _ "body" _ _ _ (.tail _ (.head _)) rfl ?_
  refine @Edit.member _ _ "locals" _ _ _ (.tail _ (.head _)) rfl (@Edit.item _ [_] [] _ _ ?_)
  exact @Edit.member _ _ "ty" _ _ _ (.head _) rfl h

/-- The members of the crate and of the type of the argument are put in another order, and there
are a note on the function and, behind the way of using the argument that decides, a second one. -/
theorem reading_unchanged_increment :
    let copy : Document := .object [("copy", .object [("local", .int 1)]), ("move", .bool false)]
    let int8 : Document := .object [("bits", .int 8), ("kind", .text "int")]
    let d' := incrementDocument [("note", .null)] copy int8
    Rearranged .crate increment.toDocument d' ∧ ofDocument d' = .ok increment := by
  intro copy int8 d'
  have horder : Edit (.node .crate) increment.toDocument
      (incrementDocument [] (Operand.copy ⟨1, []⟩).toDocument (Ty.int 8).toDocument) :=
    .permute (by simp) (.swap _ _ _)
  have hnote : ∀ use ty, Edit (.node .crate) (incrementDocument [] use ty)
      (incrementDocument [("note", .null)] use ty) := by
    intro use ty
    refine @Edit.member _ _ "functions" _ _ _ (.head _) rfl (@Edit.item _ [] [] _ _ ?_)
    exact @Edit.add _ _ "note" .null (by simp [Node.slots])
  have hmove : "move" ∉ (Node.operand.slots (Operand.copy ⟨1, []⟩).toDocument).map Prod.fst := by
    show "move" ∉ ["copy"]
    simp
  have hcopy : Edit (.node .operand) (Operand.copy ⟨1, []⟩).toDocument copy := .add hmove
  have hint8 : Edit (.node .type) (Ty.int 8).toDocument int8 := .permute (by simp) (.swap _ _ _)
  have hedits : Rearranged .crate increment.toDocument d' :=
    (((Relation.ReflTransGen.single horder).tail (hnote _ _)).tail
      (incrementDocument_use hcopy)).tail (incrementDocument_ty hint8)
  have hread : ofDocument increment.toDocument = .ok increment :=
    lossless.read_write (by decide)
  exact ⟨hedits, ((reading_unchanged hedits).1 increment).2 hread⟩

end Crate

end MirRange
