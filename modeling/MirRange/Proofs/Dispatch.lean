import MirRange.Crate
import MirRange.Proofs.Path

/-!
# Reading by the first key that is present

Steps of places, operands, rvalues and statements are told apart by the keys of their objects: the
keys are tried in a fixed order, and the first one that is present decides how to go on.

* `Document.dispatch`: reading in this way, for any list of keys.
* `Document.Lacks`: keys that are absent; `Document.dispatch_cases`, `Document.dispatch_at`: which
  key decides.
* `Projection.ofDocument_eq`, `Operand.ofDocument_eq`, `Rvalue.ofDocument_eq`,
  `Statement.ofDocument_eq`: the four readers that work so.
-/

namespace MirRange

variable {α : Type}

namespace Document

/-- Read by the first key that is present. -/
def dispatch (d : Document) (other : Malformed) :
    List (String × (Document → Except Malformed α)) → Except Malformed α
  | [] => .error other
  | (key, read) :: rest =>
    match d.get? key with
    | some x => read x
    | none => dispatch d other rest

variable {d : Document} {other : Malformed} {key : String} {read : Document → Except Malformed α}
  {rest : List (String × (Document → Except Malformed α))}

theorem dispatch_of_some {x : Document} (h : d.get? key = some x) :
    d.dispatch other ((key, read) :: rest) = read x := by
  rw [dispatch, h]

theorem dispatch_of_none (h : d.get? key = none) :
    d.dispatch other ((key, read) :: rest) = d.dispatch other rest := by
  rw [dispatch, h]

/-- None of some keys is present. -/
def Lacks (d : Document) (keys : List String) : Prop :=
  ∀ key ∈ keys, d.get? key = none

/-- What is read is read under the first of the remaining keys, or under one after it. -/
theorem dispatch_cases {keys : List String} {a : α} (hlacks : d.Lacks keys)
    (h : d.dispatch other ((key, read) :: rest) = .ok a) :
    (∃ x, d.get? key = some x ∧ read x = .ok a) ∨
      d.Lacks (keys ++ [key]) ∧ d.dispatch other rest = .ok a := by
  cases hx : d.get? key with
  | some x =>
    rw [dispatch_of_some hx] at h
    exact .inl ⟨x, rfl, h⟩
  | none =>
    rw [dispatch_of_none hx] at h
    exact .inr ⟨List.forall_mem_append.2 ⟨hlacks, List.forall_mem_singleton.2 hx⟩, h⟩

/-- A key decides if it is present and those before it are not. -/
theorem dispatch_at (readers : List (String × (Document → Except Malformed α))) (n : Nat)
    {x : Document} (hlacks : d.Lacks ((readers.take n).map Prod.fst))
    (hread : readers[n]? = some (key, read)) (hx : d.get? key = some x) :
    d.dispatch other readers = read x := by
  induction readers generalizing n with
  | nil => simp at hread
  | cons r rest ih =>
    obtain ⟨k, f⟩ := r
    cases n with
    | zero =>
      simp only [List.getElem?_cons_zero, Option.some.injEq, Prod.mk.injEq] at hread
      obtain ⟨rfl, rfl⟩ := hread
      exact dispatch_of_some hx
    | succ n =>
      obtain ⟨hk, hrest⟩ := List.forall_mem_cons.1 hlacks
      rw [dispatch_of_none hk]
      exact ih n hrest hread

end Document

/-! ### The readers -/

/-- The ways of reading a step of a place. -/
def Projection.readers : List (String × (Document → Except Malformed Projection)) :=
  [("field", fun x => (Document.integer "field" x).map .field),
    ("index", fun x => (Document.integer "index" x).map .index), ("deref", fun _ => .ok .deref)]

theorem Projection.ofDocument_eq (d : Document) :
    ofDocument d = d.dispatch (.projectionElement d) readers :=
  rfl

/-- A constant must be an object. -/
def Operand.readConst : Document → Except Malformed Operand
  | .object ms => (Const.ofDocument (.object ms)).map .const
  | _ => .error (.shape "const" .object)

/-- The ways of reading an operand. -/
def Operand.readers : List (String × (Document → Except Malformed Operand)) :=
  [("copy", fun x => (Place.ofDocument x).map .copy),
    ("move", fun x => (Place.ofDocument x).map .move), ("const", readConst)]

theorem Operand.ofDocument_eq (d : Document) : ofDocument d = d.dispatch (.operand d) readers := by
  unfold ofDocument
  simp only [readers, Document.dispatch]
  cases d.get? "const" with
  | some x => cases x <;> rfl
  | none => rfl

/-- The operands of an aggregate must be a list. -/
def Rvalue.readAggregate : Document → Except Malformed Rvalue
  | .list ds => (readAll Operand.ofDocument ds).map .aggregate
  | _ => .error (.shape "aggregate" .list)

/-- The ways of reading an rvalue. -/
def Rvalue.readers : List (String × (Document → Except Malformed Rvalue)) :=
  [("use", fun x => (Operand.ofDocument x).map .use),
    ("binary_op", fun x => (readBinary .binary x).map fun (op, l, r) => .binary op l r),
    ("checked_binary_op", fun x => (readBinary .checked x).map fun (op, l, r) => .checked op l r),
    ("unary_op", fun x => (readUnary x).map fun (op, x) => .unary op x),
    ("ref", readRef), ("aggregate", readAggregate), ("cast", readCast)]

theorem Rvalue.ofDocument_eq (d : Document) : ofDocument d = d.dispatch (.rvalue d) readers := by
  unfold ofDocument
  simp only [readers, Document.dispatch]
  cases d.get? "aggregate" with
  | some x => cases x <;> rfl
  | none => rfl

/-- The ways of reading a statement. -/
def Statement.readers : List (String × (Document → Except Malformed Statement)) :=
  [("assign", readAssign), ("deinit", fun x => (Place.ofDocument x).map .deinit),
    ("storage_live", fun x => (Document.integer "storage_live" x).map .storageLive),
    ("storage_dead", fun x => (Document.integer "storage_dead" x).map .storageDead),
    ("nop", fun _ => .ok .nop)]

theorem Statement.ofDocument_eq (d : Document) :
    ofDocument d = d.dispatch (.statement d) readers :=
  rfl

end MirRange
