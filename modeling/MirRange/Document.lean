/-!
# Documents

The tree that every text format of this library is read into and written from.  Members of an
object keep the order in which they were first met, since that order shows wherever a document is
written out again.

* `Document`: null, truth values, integers of any size, floats, text, lists and objects.
* `Members.get?`, `Members.put`: look-up by key, and insertion that keeps a key's first place.
* `Document.holds`: whether a document counts as true.
-/

namespace MirRange

/-- A tree of plain data. -/
inductive Document where
  | null
  | bool (b : Bool)
  | int (n : Int)
  | float (x : Float)
  | text (s : String)
  | list (items : List Document)
  | object (members : List (String × Document))
deriving Inhabited

/-- The members of an object, in the order in which their keys were first met. -/
abbrev Members := List (String × Document)

namespace Members

/-- The value stored under a key. -/
def get? : Members → String → Option Document
  | [], _ => none
  | (k, d) :: ms, key => if k = key then some d else get? ms key

/-- Whether a key is present. -/
def has (ms : Members) (key : String) : Bool :=
  (ms.get? key).isSome

/-- Store a value under a key: a known key keeps its place, a new one comes last. -/
def put : Members → String → Document → Members
  | [], key, d => [(key, d)]
  | (k, old) :: ms, key, d => if k = key then (k, d) :: ms else (k, old) :: put ms key d

theorem get?_put_self (ms : Members) (key : String) (d : Document) :
    (ms.put key d).get? key = some d := by
  induction ms with
  | nil => simp [put, get?]
  | cons m ms ih =>
    obtain ⟨k, old⟩ := m
    by_cases h : k = key <;> simp [put, get?, h, ih]

theorem get?_put_of_ne (ms : Members) {key other : String} (d : Document) (h : key ≠ other) :
    (ms.put key d).get? other = ms.get? other := by
  induction ms with
  | nil => simp [put, get?, h]
  | cons m ms ih =>
    obtain ⟨k, old⟩ := m
    by_cases hk : k = key
    · subst hk
      simp [put, get?, h]
    · simp [put, get?, hk, ih]

/-- A look-up returns a document that is one of the members. -/
theorem mem_of_get? {ms : Members} {key : String} {d : Document} (h : ms.get? key = some d) :
    (key, d) ∈ ms := by
  induction ms with
  | nil => simp [get?] at h
  | cons m ms ih =>
    obtain ⟨k, old⟩ := m
    by_cases hk : k = key
    · simp [get?, hk] at h
      simp [hk, h]
    · simp [get?, hk] at h
      exact List.mem_cons_of_mem _ (ih h)

/-- A look-up descends: what it returns is smaller than the members it was found in. -/
theorem sizeOf_get? {ms : Members} {key : String} {d : Document} (h : ms.get? key = some d) :
    sizeOf d < sizeOf ms := by
  have hm := List.sizeOf_lt_of_mem (mem_of_get? h)
  have hp : sizeOf (key, d) = 1 + sizeOf key + sizeOf d := rfl
  omega

end Members

namespace Document

/-- The members of an object; anything else has none. -/
def members : Document → Members
  | .object ms => ms
  | _ => []

/-- The value stored under a key of an object. -/
def get? (d : Document) (key : String) : Option Document :=
  d.members.get? key

/-- A look-up descends: what it returns is smaller than the document it was found in. -/
theorem sizeOf_get? {d v : Document} {key : String} (h : d.get? key = some v) :
    sizeOf v < sizeOf d := by
  cases d with
  | object ms =>
    have : sizeOf v < sizeOf ms := Members.sizeOf_get? h
    simp only [Document.object.sizeOf_spec]
    omega
  | _ => simp [get?, members, Members.get?] at h

/-- Whether a document counts as true: everything does except null, false, zero and what is
empty.  A float that is not a number is not zero. -/
def holds : Document → Bool
  | .null => false
  | .bool b => b
  | .int n => n != 0
  | .float x => !(x == 0)
  | .text s => s != ""
  | .list items => !items.isEmpty
  | .object ms => !ms.isEmpty

end Document

end MirRange
