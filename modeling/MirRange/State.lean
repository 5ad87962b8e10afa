import MirRange.Body
import MirRange.Value.Access
import MirRange.Value.Typed

/-!
# States

A state binds locals to abstract values.  It keeps the order in which locals were first bound, which
shows in logs; reports list locals by number.

* `State.get?`, `State.set`: look-up and binding.
* `State.read`, `State.write`: reading and writing through the path of a place.
* `State.sorted`, `State.toDocument`: the bindings by number.
-/

namespace MirRange

/-- Bindings of locals to values, in the order in which the locals were first bound. -/
structure State where
  bindings : List (Local × Value)

namespace State

/-- The state that binds nothing. -/
def empty : State :=
  ⟨[]⟩

/-- The value bound to a local, in a list of bindings. -/
def lookup : List (Local × Value) → Local → Option Value
  | [], _ => none
  | (m, v) :: rest, n => if m = n then some v else lookup rest n

/-- Bind a local, in a list of bindings: a bound local keeps its place, a new one comes last. -/
def insert : List (Local × Value) → Local → Value → List (Local × Value)
  | [], n, v => [(n, v)]
  | (m, old) :: rest, n, v => if m = n then (m, v) :: rest else (m, old) :: insert rest n v

/-- The value bound to a local. -/
def get? (s : State) (n : Local) : Option Value :=
  lookup s.bindings n

/-- Bind a local. -/
def set (s : State) (n : Local) (v : Value) : State :=
  ⟨insert s.bindings n v⟩

theorem get?_empty (n : Local) : empty.get? n = none := rfl

@[simp] theorem get?_set_self (s : State) (n : Local) (v : Value) : (s.set n v).get? n = some v := by
  show lookup (insert s.bindings n v) n = some v
  induction s.bindings with
  | nil => simp [insert, lookup]
  | cons b rest ih =>
    obtain ⟨m, old⟩ := b
    by_cases h : m = n <;> simp [insert, lookup, h, ih]

theorem get?_set_of_ne (s : State) {n k : Local} (v : Value) (h : n ≠ k) :
    (s.set n v).get? k = s.get? k := by
  show lookup (insert s.bindings n v) k = lookup s.bindings k
  induction s.bindings with
  | nil => simp [insert, lookup, h]
  | cons b rest ih =>
    obtain ⟨m, old⟩ := b
    by_cases hm : m = n
    · subst hm
      simp [insert, lookup, h]
    · simp [insert, lookup, hm, ih]

/-- Bind locals to values, one by one, as far as both lists reach. -/
def bindAll (s : State) : List Local → List Value → State
  | n :: ns, v :: vs => bindAll (s.set n v) ns vs
  | _, _ => s

/-- The value of a place. -/
def read (s : State) (p : Place) : Except Fault Value :=
  match s.get? p.base with
  | none => .error (.unset p)
  | some v => Value.follow p p.path v

/-- What a path into a local starts from: a local without a value counts as holding anything of its
declared type. -/
def writable (b : Body) (s : State) (n : Local) : Except Fault Value :=
  match s.get? n with
  | none | some .uninit => do Value.ofTy (← b.localTy n)
  | some v => .ok v

/-- Write a value to a place.  A whole local is bound as it is; a part is replaced in what the local
holds. -/
def write (b : Body) (s : State) (p : Place) (v : Value) : Except Fault State :=
  match p.path with
  | [] => .ok (s.set p.base v)
  | path => do
    let current ← s.writable b p.base
    let changed ← Value.update p v path current
    return s.set p.base changed

/-- The bindings by number of the local. -/
def sorted (s : State) : List (Local × Value) :=
  s.bindings.mergeSort fun a b => a.1 ≤ b.1

/-- The document form of a state: locals by name, in the order of their numbers. -/
def toDocument (s : State) : Document :=
  .object (s.sorted.map fun (n, v) => (localText n, v.toDocument))

end State

end MirRange
