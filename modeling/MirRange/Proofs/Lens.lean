import MirRange.Proofs.Typing

/-!
# Reading and writing of places

A place is read by following its path from the outside in, and written by rebuilding the value
around the new part from the inside out; a local without a value is filled up first.  The two
traversals stop at the same steps, for the same reasons, and fit together as the two halves of a
lens.

* `Nested.follow?_update?`, `Nested.update?_follow?`, `Nested.update?_update?`: what is written is
  read, writing what is read changes nothing, and the last write wins.
* `Value.follow_or_update`: a path can be followed exactly if it can be updated.
* `Value.follow_update_of_ne`: a path that turns off leads to what it led to before.
* `State.read_write_laws`: the same for places.
-/

namespace MirRange

/-! ### Items of lists -/

section

variable {α : Type} {items : List α} {i j : Int} {a : α}

theorem at?_set_self (h : at? items i = some a) (new : α) :
    at? (items.set i.toNat new) i = some new := by
  rw [at?_eq_some] at h ⊢
  have hlt : i.toNat < items.length := (List.getElem?_eq_some_iff.1 h.2).1
  exact ⟨h.1, List.getElem?_set_self hlt⟩

theorem at?_set_of_ne (hi : 0 ≤ i) (hij : i ≠ j) (new : α) :
    at? (items.set i.toNat new) j = at? items j := by
  unfold at?
  by_cases hj : 0 ≤ j
  · have hne : i.toNat ≠ j.toNat := by omega
    rw [if_pos hj, if_pos hj, List.getElem?_set_ne hne]
  · rw [if_neg hj, if_neg hj]

theorem set_eq_of_at? (h : at? items i = some a) : items.set i.toNat a = items := by
  have hget := (List.getElem?_eq_some_iff.1 (at?_eq_some.1 h).2).2
  rw [← hget, List.set_getElem_self]

end

/-! ### Paths into nested data -/

namespace Nested

variable {α : Type} [Nested α] {path : List Projection} {new new' a b part : α}

/-- What is written at the end of a path is read there. -/
theorem follow?_update? (h : update? new path a = some b) : follow? path b = some new := by
  induction path generalizing a b with
  | nil =>
    rw [← Option.some.inj h]
    rfl
  | cons step path ih =>
    cases step with
    | field i =>
      obtain ⟨items, inner, inner', -, hinner, hinner', rfl⟩ := update?_field_eq_some.1 h
      exact follow?_field_eq_some.2
        ⟨_, inner', items?_ofItems _, at?_set_self hinner inner', ih hinner'⟩
    | deref => simp [update?] at h
    | index n => simp [update?] at h

/-- Writing what is read changes nothing. -/
theorem update?_follow? (h : follow? path a = some part) : update? part path a = some a := by
  induction path generalizing a with
  | nil =>
    rw [Option.some.inj h]
    rfl
  | cons step path ih =>
    cases step with
    | field i =>
      obtain ⟨items, inner, hitems, hinner, hpart⟩ := follow?_field_eq_some.1 h
      have hsame : ofItems (items.set i.toNat inner) = a := by
        rw [set_eq_of_at? hinner]
        exact ofItems_of_items? hitems
      exact update?_field_eq_some.2 ⟨items, inner, inner, hitems, hinner, ih hpart, hsame⟩
    | deref => simp [follow?] at h
    | index n => simp [follow?] at h

/-- The last of two writes to one path wins. -/
theorem update?_update? (h : update? new path a = some b) :
    update? new' path b = update? new' path a := by
  induction path generalizing a b with
  | nil => rfl
  | cons step path ih =>
    cases step with
    | field i =>
      obtain ⟨items, inner, inner', hitems, hinner, hinner', rfl⟩ := update?_field_eq_some.1 h
      simp only [update?, items?_ofItems, hitems, at?_set_self hinner inner', hinner, ih hinner',
        Option.bind_eq_bind, Option.bind_some, List.set_set]
    | deref => simp [update?] at h
    | index n => simp [update?] at h

end Nested

/-! ### Paths into values -/

namespace Value

/-- **A path can be followed exactly if it can be updated**, and the fault is the same if it cannot,
whatever is written. -/
theorem follow_or_update (place : Place) (new : Value) (path : List Projection) (v : Value) :
    (∃ part changed, follow place path v = .ok part ∧ update place new path v = .ok changed) ∨
      ∃ f, follow place path v = .error f ∧ update place new path v = .error f := by
  induction path generalizing v with
  | nil => exact .inl ⟨v, new, rfl, rfl⟩
  | cons step path ih =>
    cases step with
    | field i =>
      rw [follow, update]
      cases hfield : v.field i with
      | error f => exact .inr ⟨f, rfl, rfl⟩
      | ok inner =>
        obtain ⟨items, hitems, hinner⟩ := field_eq_ok.1 hfield
        rw [items?_eq_some] at hitems
        rcases ih inner with ⟨part, changed, hpart, hchanged⟩ | ⟨f, hfollow, hupdate⟩
        · -- an item that is there can be replaced, so the last step does not fail
          have hset : v.set i changed = .ok (.tuple (items.set i.toNat changed)) := by
            rw [hitems, set_of_at? hinner]
          exact .inl ⟨part, _, hpart, bind_eq_ok.2 ⟨inner, rfl, bind_eq_ok.2 ⟨_, hchanged, hset⟩⟩⟩
        · have hinside : (do v.set i (← update place new path inner)) = .error f :=
            bind_eq_error.2 (.inl hupdate)
          exact .inr ⟨f, hfollow, bind_eq_error.2 (.inr ⟨inner, rfl, hinside⟩)⟩
    | deref => exact .inr ⟨_, rfl, rfl⟩
    | index n => exact .inr ⟨_, rfl, rfl⟩

/-- Whether a path can be updated does not depend on what is written. -/
theorem exists_update {place : Place} {new changed v : Value} {path : List Projection}
    (h : update place new path v = .ok changed) (new' : Value) :
    ∃ changed', update place new' path v = .ok changed' := by
  rcases follow_or_update place new path v with ⟨part, _, hpart, -⟩ | ⟨f, -, hf⟩
  · rcases follow_or_update place new' path v with ⟨-, changed', -, h'⟩ | ⟨f, hf, -⟩
    · exact ⟨changed', h'⟩
    · rw [hpart] at hf
      cases hf
  · rw [h] at hf
    cases hf

/-- A tuple with one item replaced has its other fields, or lacks them, as before. -/
theorem field_set_of_ne {items : List Value} {i j : Int} (hi : 0 ≤ i) (hij : i ≠ j) (new : Value) :
    (Value.tuple (items.set i.toNat new)).field j = (Value.tuple items).field j := by
  rw [field_tuple, field_tuple, at?_set_of_ne hi hij, List.length_set]

theorem update_field_eq_ok {place : Place} {new v v' : Value} {i : Int} {path : List Projection} :
    update place new (.field i :: path) v = .ok v' ↔
      ∃ items inner changed, v = .tuple items ∧ at? items i = some inner ∧
        update place new path inner = .ok changed ∧ .tuple (items.set i.toNat changed) = v' := by
  simp only [update_eq_ok, Nested.update?_field_eq_some]
  refine exists_congr fun items => ?_
  simp only [show Nested.items? v = some items ↔ v = .tuple items from items?_eq_some]
  rfl

/-- **A path that turns off at a field leads where it led before**, or fails as it did before. -/
theorem follow_update_of_ne {p q : Place} {new v v' : Value} {before rest rest' : List Projection}
    {i j : Int} (hij : i ≠ j) (h : update p new (before ++ .field i :: rest) v = .ok v') :
    follow q (before ++ .field j :: rest') v' = follow q (before ++ .field j :: rest') v := by
  induction before generalizing v v' with
  | nil =>
    obtain ⟨items, inner, changed, rfl, hinner, -, rfl⟩ := update_field_eq_ok.1 h
    have hi : 0 ≤ i := (at?_eq_some.1 hinner).1
    rw [List.nil_append, follow, follow, field_set_of_ne hi hij]
  | cons step before ih =>
    cases step with
    | field k =>
      obtain ⟨items, inner, changed, rfl, hinner, hchanged, rfl⟩ := update_field_eq_ok.1 h
      have hold : (Value.tuple items).field k = .ok inner :=
        field_eq_ok.2 ⟨items, rfl, hinner⟩
      have hnew : (Value.tuple (items.set k.toNat changed)).field k = .ok changed :=
        field_eq_ok.2 ⟨_, rfl, at?_set_self hinner changed⟩
      rw [List.cons_append, follow, follow, hold, hnew]
      exact ih hchanged
    | deref => cases h
    | index n => cases h

end Value

/-! ### Places -/

/-- Two places on one local that part ways at a field. -/
def Place.Diverges (p q : Place) : Prop :=
  p.base = q.base ∧ ∃ before i j rest rest', p.path = before ++ .field i :: rest ∧
    q.path = before ++ .field j :: rest' ∧ i ≠ j

namespace State

variable {b : Body} {s s' : State} {p : Place} {v w u : Value} {n : Local}

/-- A local is bound to a value, and not deinitialised. -/
def Holds (s : State) (n : Local) : Prop :=
  ∃ u, s.get? n = some u ∧ u ≠ .uninit

theorem set_set (s : State) (n : Local) (v w : Value) : (s.set n v).set n w = s.set n w := by
  obtain ⟨l⟩ := s
  show State.mk (insert (insert l n v) n w) = State.mk (insert l n w)
  congr 1
  induction l with
  | nil => simp [insert]
  | cons binding rest ih =>
    obtain ⟨m, old⟩ := binding
    by_cases hm : m = n
    · simp [insert, hm]
    · simp [insert, hm, ih]

theorem set_of_get? (h : s.get? n = some v) : s.set n v = s := by
  obtain ⟨l⟩ := s
  show State.mk (insert l n v) = State.mk l
  have hl : lookup l n = some v := h
  congr 1
  induction l with
  | nil => cases hl
  | cons binding rest ih =>
    obtain ⟨m, old⟩ := binding
    by_cases hm : m = n
    · rw [lookup, if_pos hm, Option.some.injEq] at hl
      rw [insert, if_pos hm, hl]
    · rw [lookup, if_neg hm] at hl
      rw [insert, if_neg hm, ih hl hl]

theorem read_of_get? (h : s.get? p.base = some u) : s.read p = Value.follow p p.path u := by
  rw [read, h]

theorem writable_of_get? (h : s.get? n = some u) (hu : u ≠ .uninit) :
    s.writable b n = .ok u := by
  rw [writable, h]
  cases u with
  | uninit => exact absurd rfl hu
  | bool t => rfl
  | int i => rfl
  | uint i => rfl
  | tuple items => rfl

theorem write_of_nil (h : p.path = []) : s.write b p v = .ok (s.set p.base v) := by
  rw [write, h]

theorem write_of_ne_nil (h : p.path ≠ []) :
    s.write b p v = (do
      let current ← s.writable b p.base
      let changed ← Value.update p v p.path current
      return s.set p.base changed) := by
  unfold write
  split
  · rename_i hnil
    exact absurd hnil h
  · rfl

/-- A write of a part: what the local starts from is updated along the path. -/
theorem write_part_eq_ok (h : p.path ≠ []) :
    s.write b p v = .ok s' ↔
      ∃ current changed, s.writable b p.base = .ok current ∧
        Value.update p v p.path current = .ok changed ∧ s.set p.base changed = s' := by
  rw [write_of_ne_nil h, bind_eq_ok]
  refine exists_congr fun current => ?_
  rw [bind_eq_ok]
  constructor
  · intro h
    obtain ⟨hcurrent, changed, hchanged, hs⟩ := h
    exact ⟨changed, hcurrent, hchanged, Except.ok.inj hs⟩
  · intro h
    obtain ⟨changed, hcurrent, hchanged, hs⟩ := h
    exact ⟨hcurrent, changed, hchanged, congrArg Except.ok hs⟩

/-- Only a tuple has a part to be replaced, and it stays one. -/
theorem update_ne_uninit {path : List Projection} (hpath : path ≠ [])
    (h : Value.update p v path u = .ok w) : w ≠ .uninit := by
  cases path with
  | nil => exact absurd rfl hpath
  | cons step path =>
    cases step with
    | field i =>
      obtain ⟨items, inner, changed, -, -, -, rfl⟩ := Value.update_field_eq_ok.1 h
      exact nofun
    | deref => cases h
    | index n => cases h

/-- What is written is read. -/
theorem read_of_write (h : s.write b p v = .ok s') : s'.read p = .ok v := by
  by_cases hpath : p.path = []
  · rw [write_of_nil hpath, Except.ok.injEq] at h
    rw [← h, read_of_get? (get?_set_self s p.base v), hpath]
    rfl
  · obtain ⟨current, changed, -, hchanged, rfl⟩ := (write_part_eq_ok hpath).1 h
    rw [read_of_get? (get?_set_self s p.base changed), Value.follow_eq_ok]
    exact Nested.follow?_update? (Value.update_eq_ok.1 hchanged)

/-- Writing what is read leaves the state as it is. -/
theorem write_of_read (h : s.read p = .ok v) : s.write b p v = .ok s := by
  obtain ⟨u, hu, hpart⟩ := read_eq_ok.1 h
  by_cases hpath : p.path = []
  · rw [hpath] at hpart
    rw [write_of_nil hpath, set_of_get? (hu.trans hpart)]
  · have hsame : Value.update p v p.path u = .ok u :=
      Value.update_eq_ok.2 (Nested.update?_follow? hpart)
    have hwritable : s.writable b p.base = .ok u :=
      writable_of_get? hu (update_ne_uninit hpath hsame)
    exact (write_part_eq_ok hpath).2 ⟨u, u, hwritable, hsame, set_of_get? hu⟩

/-- The last of two writes to one place wins. -/
theorem write_of_write (h : s.write b p v = .ok s') (w : Value) :
    ∃ s'', s'.write b p w = .ok s'' ∧ s.write b p w = .ok s'' := by
  by_cases hpath : p.path = []
  · rw [write_of_nil hpath, Except.ok.injEq] at h
    refine ⟨s.set p.base w, ?_, write_of_nil hpath⟩
    rw [write_of_nil hpath, ← h, set_set]
  · obtain ⟨current, changed, hcurrent, hchanged, rfl⟩ := (write_part_eq_ok hpath).1 h
    obtain ⟨changed', hchanged'⟩ := Value.exists_update hchanged w
    have hagain : Value.update p w p.path changed = .ok changed' := by
      rw [Value.update_eq_ok] at hchanged hchanged' ⊢
      rw [Nested.update?_update? hchanged, hchanged']
    have hwritable : (s.set p.base changed).writable b p.base = .ok changed :=
      writable_of_get? (get?_set_self s p.base changed) (update_ne_uninit hpath hchanged)
    refine ⟨s.set p.base changed', ?_, ?_⟩
    · exact (write_part_eq_ok hpath).2 ⟨changed, changed', hwritable, hagain, set_set s _ _ _⟩
    · exact (write_part_eq_ok hpath).2 ⟨current, changed', hcurrent, hchanged', rfl⟩

/-- A write to one local leaves the others alone. -/
theorem read_of_write_of_ne (h : s.write b p v = .ok s') {q : Place} (hq : q.base ≠ p.base) :
    s'.read q = s.read q := by
  obtain ⟨changed, rfl, -⟩ := write_eq_ok h
  rw [read, read, get?_set_of_ne s changed hq.symm]

/-- A write to one part of a local leaves the parts beside it alone. -/
theorem read_of_write_of_diverges (h : s.write b p v = .ok s') (hholds : s.Holds p.base)
    {q : Place} (hq : p.Diverges q) : s'.read q = s.read q := by
  obtain ⟨hbase, before, i, j, rest, rest', hp, hqpath, hij⟩ := hq
  obtain ⟨u, hu, hne⟩ := hholds
  have hpath : p.path ≠ [] := by
    rw [hp]
    exact List.append_ne_nil_of_right_ne_nil _ (List.cons_ne_nil _ _)
  obtain ⟨current, changed, hcurrent, hchanged, rfl⟩ := (write_part_eq_ok hpath).1 h
  rw [writable_of_get? hu hne, Except.ok.injEq] at hcurrent
  rw [← hcurrent, hp] at hchanged
  have hnew : (s.set p.base changed).get? q.base = some changed := by
    rw [← hbase, get?_set_self]
  rw [read_of_get? hnew, read_of_get? (hbase ▸ hu), hqpath]
  exact Value.follow_update_of_ne hij hchanged

/-- A part of a local with a value can be read exactly if it can be written. -/
theorem read_or_write (hholds : s.Holds p.base) (hpath : p.path ≠ []) (b : Body) (v : Value) :
    (∃ part s', s.read p = .ok part ∧ s.write b p v = .ok s') ∨
      ∃ f, s.read p = .error f ∧ s.write b p v = .error f := by
  obtain ⟨u, hu, hne⟩ := hholds
  have hwritable : s.writable b p.base = .ok u := writable_of_get? hu hne
  rw [read_of_get? hu, write_of_ne_nil hpath, hwritable]
  rcases Value.follow_or_update p v p.path u with ⟨part, changed, hpart, hchanged⟩ | ⟨f, hf, hf'⟩
  · exact .inl ⟨part, s.set p.base changed, hpart, bind_eq_ok.2 ⟨u, rfl, bind_eq_ok.2
      ⟨changed, hchanged, rfl⟩⟩⟩
  · exact .inr ⟨f, hf, bind_eq_error.2 (.inr ⟨u, rfl, bind_eq_error.2 (.inl hf')⟩)⟩

/-- **Reading and writing of places are a lens.**  For all bodies, states, places and values:

* what is written to a place is read there;
* writing what is read leaves the state as it is;
* the last of two writes to a place wins;
* a write leaves places on other locals alone, and on the same local, if it held a value, all places
  that part ways with the one written at some field: they have the same value or the same fault;
* a part of a local that holds a value is read and written, or neither and for the same reason. -/
theorem read_write_laws (b : Body) (s : State) (p : Place) (v w : Value) :
    (∀ s', s.write b p v = .ok s' → s'.read p = .ok v) ∧
    (s.read p = .ok v → s.write b p v = .ok s) ∧
    (∀ s', s.write b p v = .ok s' →
      ∃ s'', s'.write b p w = .ok s'' ∧ s.write b p w = .ok s'') ∧
    (∀ s', s.write b p v = .ok s' →
      (∀ q : Place, q.base ≠ p.base → s'.read q = s.read q) ∧
      (s.Holds p.base → ∀ q, p.Diverges q → s'.read q = s.read q)) ∧
    (s.Holds p.base → p.path ≠ [] →
      (∃ part s', s.read p = .ok part ∧ s.write b p v = .ok s') ∨
        ∃ f, s.read p = .error f ∧ s.write b p v = .error f) := by
  refine ⟨fun s' => read_of_write, write_of_read, fun s' h => write_of_write h w, ?_, ?_⟩
  · intro s' h
    exact ⟨fun q => read_of_write_of_ne h, fun hholds q => read_of_write_of_diverges h hholds⟩
  · intro hholds hpath
    exact read_or_write hholds hpath b v

/-- A state with one local, which holds a pair of a pair and an integer. -/
def pairs : State :=
  empty.set 0 (.tuple [.tuple [.int (.single 1), .bool .top], .uint (.between 0 3)])

/-- The inner truth value is deinitialised.  It is then read as such, the integer beside it is read
as before, and so is a field that neither pair has; the fields of that integer can be neither read
nor written. -/
theorem read_write_laws_pairs :
    ∃ s', pairs.write ⟨[], [], 0⟩ ⟨0, [.field 0, .field 1]⟩ .uninit = .ok s' ∧
      s'.read ⟨0, [.field 0, .field 1]⟩ = .ok .uninit ∧
      s'.read ⟨0, [.field 1]⟩ = .ok (.uint (.between 0 3)) ∧
      s'.read ⟨0, [.field 0, .field (-1)]⟩ = .error (.outOfRange (-1) 2) ∧
      pairs.write ⟨[], [], 0⟩ ⟨0, [.field 1, .field 0]⟩ .uninit = .error (.notIndexable .uint) := by
  obtain ⟨s', hs'⟩ : ∃ s', pairs.write ⟨[], [], 0⟩ ⟨0, [.field 0, .field 1]⟩ .uninit = .ok s' :=
    ⟨_, rfl⟩
  have hholds : pairs.Holds 0 := ⟨_, rfl, nofun⟩
  have hturn : Place.Diverges ⟨0, [.field 0, .field 1]⟩ ⟨0, [.field 1]⟩ :=
    ⟨rfl, [], 0, 1, [.field 1], [], rfl, rfl, by decide⟩
  have hinner : Place.Diverges ⟨0, [.field 0, .field 1]⟩ ⟨0, [.field 0, .field (-1)]⟩ :=
    ⟨rfl, [.field 0], 1, -1, [], [], rfl, rfl, by decide⟩
  obtain ⟨hread, -, -, hframe, -⟩ :=
    read_write_laws ⟨[], [], 0⟩ pairs ⟨0, [.field 0, .field 1]⟩ .uninit .uninit
  obtain ⟨-, -, -, -, hagree⟩ :=
    read_write_laws ⟨[], [], 0⟩ pairs ⟨0, [.field 1, .field 0]⟩ .uninit .uninit
  refine ⟨s', hs', hread s' hs', ?_, ?_, ?_⟩
  · rw [(hframe s' hs').2 hholds _ hturn]
    rfl
  · rw [(hframe s' hs').2 hholds _ hinner]
    rfl
  · rcases hagree hholds (List.cons_ne_nil _ _) with ⟨part, _, hpart, -⟩ | ⟨f, hf, hf'⟩
    · cases hpart
    · cases hf
      exact hf'

end State

end MirRange
