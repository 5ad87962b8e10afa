import Mathlib.Data.List.Forall2
import MirRange.Body
import MirRange.Value.Access

/-!
# Paths into nested data

Abstract values, types and stored data are all nested tuples, and a place is a path into them.  This
file follows and updates such paths once for all three, so that what relates two kinds of nested
data item by item also relates their parts at the end of a path.

* `Nested`: data that may be a tuple; `Nested.follow?`, `Nested.update?`: its part at the end of a
  path, and the data with this part replaced.
* `Nested.follow?_carried`, `Nested.update?_carried`: a relation that tuples hand down to their
  items is kept along every path, for reading and for writing.
* `Value.follow_eq_ok`, `Value.update_eq_ok`, `Body.pathTy_of_follow?`: reading and writing of
  values, and the type of a path, are instances.
-/

namespace MirRange

variable {α β ε : Type}

/-! ### Computations that succeed or fail -/

theorem bind_eq_ok {x : Except ε α} {f : α → Except ε β} {b : β} :
    x >>= f = .ok b ↔ ∃ a, x = .ok a ∧ f a = .ok b := by
  cases x with
  | error e => simp [bind, Except.bind]
  | ok a => simp [bind, Except.bind]

theorem map_eq_ok {x : Except ε α} {f : α → β} {b : β} :
    x.map f = .ok b ↔ ∃ a, x = .ok a ∧ f a = b := by
  cases x <;> simp [Except.map]

theorem mapError_eq_ok {ε' : Type} {x : Except ε α} {f : ε → ε'} {a : α} :
    x.mapError f = .ok a ↔ x = .ok a := by
  cases x with
  | error e => simp [Except.mapError]
  | ok a => simp [Except.mapError]

theorem bind_eq_error {x : Except ε α} {f : α → Except ε β} {e : ε} :
    x >>= f = .error e ↔ x = .error e ∨ ∃ a, x = .ok a ∧ f a = .error e := by
  cases x with
  | error e => simp [bind, Except.bind]
  | ok a => simp [bind, Except.bind]

theorem map_eq_error {x : Except ε α} {f : α → β} {e : ε} :
    x.map f = .error e ↔ x = .error e := by
  cases x <;> simp [Except.map]

theorem mapError_eq_error {ε' : Type} {x : Except ε α} {f : ε → ε'} {e' : ε'} :
    x.mapError f = .error e' ↔ ∃ e, x = .error e ∧ f e = e' := by
  cases x with
  | error e => simp [Except.mapError]
  | ok a => simp [Except.mapError]

/-! ### Items of related lists -/

/-- The item of a list at an index that may be negative. -/
def at? (items : List α) (i : Int) : Option α :=
  if 0 ≤ i then items[i.toNat]? else none

theorem at?_eq_some {items : List α} {i : Int} {a : α} :
    at? items i = some a ↔ 0 ≤ i ∧ items[i.toNat]? = some a := by
  unfold at?
  split
  · rename_i hi
    simp [hi]
  · rename_i hi
    simp only [hi, false_and, reduceCtorEq]

theorem getElem?_of_forall₂ {R : α → β → Prop} {as : List α} {bs : List β}
    (h : List.Forall₂ R as bs) {n : Nat} {a : α} (ha : as[n]? = some a) :
    ∃ b, bs[n]? = some b ∧ R a b := by
  induction h generalizing n with
  | nil => simp at ha
  | cons hab _ ih =>
    cases n with
    | zero =>
      simp only [List.getElem?_cons_zero, Option.some.injEq] at ha ⊢
      exact ⟨_, rfl, ha ▸ hab⟩
    | succ n => exact ih (by simpa using ha)

theorem at?_of_forall₂ {R : α → β → Prop} {as : List α} {bs : List β}
    (h : List.Forall₂ R as bs) {i : Int} {a : α} (ha : at? as i = some a) :
    ∃ b, at? bs i = some b ∧ R a b := by
  obtain ⟨hi, ha⟩ := at?_eq_some.1 ha
  obtain ⟨b, hb, hab⟩ := getElem?_of_forall₂ h ha
  exact ⟨b, at?_eq_some.2 ⟨hi, hb⟩, hab⟩

theorem forall₂_set {R : α → β → Prop} {as : List α} {bs : List β}
    (h : List.Forall₂ R as bs) {a : α} {b : β} (hab : R a b) (n : Nat) :
    List.Forall₂ R (as.set n a) (bs.set n b) := by
  induction h generalizing n with
  | nil => exact .nil
  | cons hcd htail ih =>
    cases n with
    | zero => exact .cons hab htail
    | succ n => exact .cons hcd (ih n)

/-- Between related lists a relation may be replaced by one that follows from it at the items. -/
theorem forall₂_imp_mem {R S : α → β → Prop} {as : List α} {bs : List β}
    (h : List.Forall₂ R as bs) (himp : ∀ a ∈ as, ∀ b, R a b → S a b) : List.Forall₂ S as bs := by
  induction h with
  | nil => exact .nil
  | cons hab _ ih =>
    exact .cons (himp _ List.mem_cons_self _ hab)
      (ih fun a ha => himp a (List.mem_cons_of_mem _ ha))

/-- If every item of a list has a third item that its partner leads to, the lists have a third
list. -/
theorem forall₂_choose {γ : Type} {R : α → β → Prop} {S : β → γ → Prop} {T : α → γ → Prop}
    {as : List α} {bs : List β} (h : List.Forall₂ R as bs)
    (hex : ∀ a ∈ as, ∀ b, R a b → ∃ c, S b c ∧ T a c) :
    ∃ cs, List.Forall₂ S bs cs ∧ List.Forall₂ T as cs := by
  induction h with
  | nil => exact ⟨[], .nil, .nil⟩
  | cons hab _ ih =>
    obtain ⟨c, hbc, hac⟩ := hex _ List.mem_cons_self _ hab
    obtain ⟨cs, hbs, has⟩ := ih fun a ha => hex a (List.mem_cons_of_mem _ ha)
    exact ⟨c :: cs, .cons hbc hbs, .cons hac has⟩

/-- If every item of a list has a partner, the list has a list of partners. -/
theorem exists_forall₂ {R : α → β → Prop} {as : List α} (h : ∀ a ∈ as, ∃ b, R a b) :
    ∃ bs, List.Forall₂ R as bs := by
  induction as with
  | nil => exact ⟨[], .nil⟩
  | cons a as ih =>
    obtain ⟨b, hab⟩ := h a List.mem_cons_self
    obtain ⟨bs, hbs⟩ := ih fun a' ha => h a' (List.mem_cons_of_mem _ ha)
    exact ⟨b :: bs, .cons hab hbs⟩

/-- Two relations between lists compose to a third one if they do at the items. -/
theorem forall₂_comp {γ : Type} {R : α → β → Prop} {S : β → γ → Prop} {T : α → γ → Prop}
    {as : List α} {bs : List β} {cs : List γ} (h : List.Forall₂ R as bs)
    (h' : List.Forall₂ S bs cs) (hcomp : ∀ a b c, R a b → S b c → T a c) :
    List.Forall₂ T as cs := by
  induction h generalizing cs with
  | nil =>
    cases h'
    exact .nil
  | cons hab _ ih =>
    cases h' with
    | cons hbc htail => exact .cons (hcomp _ _ _ hab hbc) (ih htail)

/-! ### Nested data -/

/-- Data that may be a tuple of such data. -/
class Nested (α : Type) where
  items? : α → Option (List α)
  ofItems : List α → α
  items?_ofItems : ∀ items, items? (ofItems items) = some items
  ofItems_of_items? : ∀ {a items}, items? a = some items → ofItems items = a

namespace Nested

variable [Nested α] [Nested β]

/-- The part at the end of a path, if the path consists of fields that are there. -/
def follow? : List Projection → α → Option α
  | [], a => some a
  | .field i :: path, a => do
    let items ← items? a
    let inner ← at? items i
    follow? path inner
  | _ :: _, _ => none

/-- The data with the part at the end of a path replaced. -/
def update? (new : α) : List Projection → α → Option α
  | [], _ => some new
  | .field i :: path, a => do
    let items ← items? a
    let inner ← at? items i
    let changed ← update? new path inner
    return ofItems (items.set i.toNat changed)
  | _ :: _, _ => none

theorem follow?_field_eq_some {i : Int} {path : List Projection} {a part : α} :
    follow? (.field i :: path) a = some part ↔
      ∃ items inner, items? a = some items ∧ at? items i = some inner ∧
        follow? path inner = some part := by
  simp [follow?, Option.bind_eq_some_iff]

theorem update?_field_eq_some {new : α} {i : Int} {path : List Projection} {a changed : α} :
    update? new (.field i :: path) a = some changed ↔
      ∃ items inner inner', items? a = some items ∧ at? items i = some inner ∧
        update? new path inner = some inner' ∧ ofItems (items.set i.toNat inner') = changed := by
  simp [update?, Option.bind_eq_some_iff]

/-- A part that can be replaced is there. -/
theorem exists_follow?_of_update? {new : α} {path : List Projection} {a changed : α}
    (h : update? new path a = some changed) : ∃ part, follow? path a = some part := by
  induction path generalizing a changed with
  | nil => exact ⟨a, rfl⟩
  | cons step path ih =>
    cases step with
    | field i =>
      obtain ⟨items, inner, changed, hitems, hinner, hchanged, -⟩ := update?_field_eq_some.1 h
      obtain ⟨part, hpart⟩ := ih hchanged
      exact ⟨part, follow?_field_eq_some.2 ⟨items, inner, hitems, hinner, hpart⟩⟩
    | deref => simp [update?] at h
    | index n => simp [update?] at h

/-- A relation that a tuple on the left hands down: what it is related to is a tuple too, and their
items are related one by one. -/
def Carried (R : α → β → Prop) : Prop :=
  ∀ {a b as}, R a b → items? a = some as → ∃ bs, items? b = some bs ∧ List.Forall₂ R as bs

/-- **Reading along a path keeps a carried relation**, and succeeds on the right where it does on
the left. -/
theorem follow?_carried {R : α → β → Prop} (hR : Carried R) {path : List Projection} {a part : α}
    {b : β} (hab : R a b) (h : follow? path a = some part) :
    ∃ part', follow? path b = some part' ∧ R part part' := by
  induction path generalizing a b with
  | nil =>
    obtain rfl : a = part := Option.some.inj h
    exact ⟨b, rfl, hab⟩
  | cons step path ih =>
    cases step with
    | field i =>
      obtain ⟨as, inner, has, hinner, hpart⟩ := follow?_field_eq_some.1 h
      obtain ⟨bs, hbs, hitems⟩ := hR hab has
      obtain ⟨inner', hinner', hrel⟩ := at?_of_forall₂ hitems hinner
      obtain ⟨part', hpart', hrel'⟩ := ih hrel hpart
      exact ⟨part', follow?_field_eq_some.2 ⟨bs, inner', hbs, hinner', hpart'⟩, hrel'⟩
    | deref => simp [follow?] at h
    | index n => simp [follow?] at h

/-- **Writing along a path keeps a carried relation**, and succeeds on the right where it does on
the left. -/
theorem update?_carried {R : α → β → Prop} (hR : Carried R)
    (hmk : ∀ {as bs}, List.Forall₂ R as bs → R (ofItems as) (ofItems bs))
    {path : List Projection} {new a changed : α} {new' b : β} (hnew : R new new') (hab : R a b)
    (h : update? new path a = some changed) :
    ∃ changed', update? new' path b = some changed' ∧ R changed changed' := by
  induction path generalizing a b changed with
  | nil =>
    obtain rfl : new = changed := Option.some.inj h
    exact ⟨new', rfl, hnew⟩
  | cons step path ih =>
    cases step with
    | field i =>
      obtain ⟨as, inner, inner₁, has, hinner, hinner₁, rfl⟩ := update?_field_eq_some.1 h
      obtain ⟨bs, hbs, hitems⟩ := hR hab has
      obtain ⟨inner', hinner', hrel⟩ := at?_of_forall₂ hitems hinner
      obtain ⟨inner₂, hinner₂, hrel'⟩ := ih hrel hinner₁
      exact ⟨_, update?_field_eq_some.2 ⟨bs, inner', inner₂, hbs, hinner', hinner₂, rfl⟩,
        hmk (forall₂_set hitems hrel' _)⟩
    | deref => simp [update?] at h
    | index n => simp [update?] at h

end Nested

/-! ### Values and types -/

/-- The items of a tuple. -/
def Value.items? : Value → Option (List Value)
  | .tuple items => some items
  | _ => none

theorem Value.items?_eq_some {v : Value} {items : List Value} :
    v.items? = some items ↔ v = .tuple items := by
  cases v <;> simp [Value.items?]

theorem Ty.fields?_eq_some {ty : Ty} {fields : List Ty} :
    ty.fields? = some fields ↔ ty = .tuple fields := by
  cases ty <;> simp [Ty.fields?]

instance : Nested Value where
  items? := Value.items?
  ofItems := .tuple
  items?_ofItems _ := rfl
  ofItems_of_items? h := (Value.items?_eq_some.1 h).symm

instance : Nested Ty where
  items? := Ty.fields?
  ofItems := .tuple
  items?_ofItems _ := rfl
  ofItems_of_items? h := (Ty.fields?_eq_some.1 h).symm

namespace Value

theorem field_tuple (items : List Value) (i : Int) :
    (Value.tuple items).field i = (at? items i).elim (.error (.outOfRange i items.length)) .ok := by
  rw [field, get?, show item? items i = at? items i from rfl]
  cases at? items i <;> rfl

theorem field_eq_ok {v w : Value} {i : Int} :
    v.field i = .ok w ↔ ∃ items, v.items? = some items ∧ at? items i = some w := by
  cases v with
  | tuple items =>
    simp only [field_tuple, items?, Option.some.injEq, exists_eq_left']
    cases at? items i <;> simp
  | bool t => simp [field, get?, items?]
  | int j => simp [field, get?, items?]
  | uint j => simp [field, get?, items?]
  | uninit => simp [field, get?, items?]

/-- Replacing an item that is there succeeds. -/
theorem set_of_at? {items : List Value} {i : Int} {inner : Value} (h : at? items i = some inner)
    (new : Value) : (Value.tuple items).set i new = .ok (.tuple (items.set i.toNat new)) := by
  obtain ⟨hi, hget⟩ := at?_eq_some.1 h
  obtain ⟨hlt, -⟩ := List.getElem?_eq_some_iff.1 hget
  rw [set, if_pos ⟨hi, by omega⟩]

theorem follow_eq_ok {place : Place} {path : List Projection} {v w : Value} :
    follow place path v = .ok w ↔ Nested.follow? path v = some w := by
  induction path generalizing v with
  | nil => simp [follow, Nested.follow?]
  | cons step path ih =>
    cases step with
    | field i =>
      rw [follow, bind_eq_ok, Nested.follow?_field_eq_some]
      constructor
      · rintro ⟨inner, hinner, hw⟩
        obtain ⟨items, hitems, hget⟩ := field_eq_ok.1 hinner
        exact ⟨items, inner, hitems, hget, ih.1 hw⟩
      · rintro ⟨items, inner, hitems, hget, hw⟩
        exact ⟨inner, field_eq_ok.2 ⟨items, hitems, hget⟩, ih.2 hw⟩
    | deref => simp [follow, Nested.follow?]
    | index n => simp [follow, Nested.follow?]

theorem update_eq_ok {place : Place} {new : Value} {path : List Projection} {v w : Value} :
    update place new path v = .ok w ↔ Nested.update? new path v = some w := by
  induction path generalizing v w with
  | nil => simp [update, Nested.update?]
  | cons step path ih =>
    cases step with
    | field i =>
      rw [update, bind_eq_ok, Nested.update?_field_eq_some]
      constructor
      · rintro ⟨inner, hinner, hw⟩
        obtain ⟨changed, hchanged, hset⟩ := bind_eq_ok.1 hw
        obtain ⟨items, hitems, hget⟩ := field_eq_ok.1 hinner
        obtain rfl := items?_eq_some.1 hitems
        rw [set_of_at? hget, Except.ok.injEq] at hset
        exact ⟨items, inner, changed, hitems, hget, ih.1 hchanged, hset⟩
      · rintro ⟨items, inner, changed, hitems, hget, hchanged, rfl⟩
        obtain rfl := items?_eq_some.1 hitems
        exact ⟨inner, field_eq_ok.2 ⟨items, hitems, hget⟩,
          bind_eq_ok.2 ⟨changed, ih.2 hchanged, set_of_at? hget changed⟩⟩
    | deref => simp [update, Nested.update?]
    | index n => simp [update, Nested.update?]

end Value

namespace Body

theorem pathTy_field_eq_ok {i : Int} {path : List Projection} {ty t : Ty} :
    pathTy (.field i :: path) ty = .ok t ↔
      ∃ fields inner, ty.fields? = some fields ∧ at? fields i = some inner ∧
        pathTy path inner = .ok t := by
  rw [pathTy, Ty.fields]
  cases ty.fields? with
  | none => simp
  | some fields =>
    dsimp only
    rw [show (if 0 ≤ i then fields[i.toNat]? else none) = at? fields i from rfl]
    cases h : at? fields i <;> simp [h]

/-- A path that leads somewhere in a type has the type found there. -/
theorem pathTy_of_follow? {path : List Projection} {ty t : Ty}
    (h : Nested.follow? path ty = some t) : pathTy path ty = .ok t := by
  induction path generalizing ty with
  | nil => exact congrArg Except.ok (Option.some.inj h)
  | cons step path ih =>
    cases step with
    | field i =>
      obtain ⟨fields, inner, hfields, hinner, hpath⟩ := Nested.follow?_field_eq_some.1 h
      exact pathTy_field_eq_ok.2 ⟨fields, inner, hfields, hinner, ih hpath⟩
    | deref => simp [Nested.follow?] at h
    | index n => simp [Nested.follow?] at h

end Body

end MirRange
