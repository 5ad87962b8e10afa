import MirRange.Proofs.Lens

/-!
# Refilling what was deinitialised

A place that was deinitialised holds a mark instead of a value.  A write to one of its fields has to
replace the mark by something that has fields.  What a write starts from is decided at the local: a
local that is marked as a whole counts as holding anything of its declared type.  A mark further
inside is met only on the way down, and there it is a value without fields.

* `Value.follow_append`: a path that goes on where another one ends.
* `State.read_part_of_read`: a field of what a place holds.
* `State.holds_of_write_part`: a local with a part written is not deinitialised as a whole.
* `State.write_part_of_unset`: a write to a field of a local without a value.
* `Body.deinit_refilled_iff`: which deinitialised places can be refilled field by field.
-/

namespace MirRange

/-- The place of a field of what a place holds. -/
def Place.part (p : Place) (i : Int) : Place :=
  ⟨p.base, p.path ++ [.field i]⟩

theorem Place.part_path_ne_nil (p : Place) (i : Int) : (p.part i).path ≠ [] := by
  show p.path ++ [.field i] ≠ []
  exact List.append_ne_nil_of_right_ne_nil _ (List.cons_ne_nil _ _)

/-- **A path that goes on where another one ends** leads where its rest leads from there. -/
theorem Value.follow_append {q : Place} {path : List Projection} {v w : Value}
    (h : follow q path v = .ok w) (rest : List Projection) :
    follow q (path ++ rest) v = follow q rest w := by
  induction path generalizing v with
  | nil =>
    obtain rfl : v = w := Except.ok.inj h
    rfl
  | cons step path ih =>
    cases step with
    | field i =>
      rw [follow] at h
      obtain ⟨inner, hinner, hw⟩ := bind_eq_ok.1 h
      rw [List.cons_append, follow, hinner]
      exact ih hw
    | deref => cases h
    | index n => cases h

namespace State

variable {b : Body} {s s' : State} {p : Place} {v w : Value}

/-- A field of what a place holds is read like a field of that value. -/
theorem read_part_of_read (h : s.read p = .ok v) (i : Int) : s.read (p.part i) = v.field i := by
  obtain ⟨u, hu, hpath⟩ := read_eq_ok.1 h
  have hfollow : Value.follow (p.part i) p.path u = .ok v := Value.follow_eq_ok.2 hpath
  have hbase : s.get? (p.part i).base = some u := hu
  rw [read_of_get? hbase]
  show Value.follow (p.part i) (p.path ++ [.field i]) u = v.field i
  rw [Value.follow_append hfollow, Value.follow]
  cases v.field i with
  | error f => rfl
  | ok inner => rfl

/-- A local with a part written is not deinitialised as a whole, even if the part is. -/
theorem holds_of_write_part (h : s.write b p v = .ok s') (hpath : p.path ≠ []) :
    s'.Holds p.base := by
  obtain ⟨current, changed, -, hchanged, rfl⟩ := (write_part_eq_ok hpath).1 h
  exact ⟨changed, get?_set_self s p.base changed, update_ne_uninit hpath hchanged⟩

/-- A write to a field of a local without a value replaces the field in the greatest value of the
declared type. -/
theorem write_part_of_unset {n : Local} {fields : List Ty} {tops : List Value} {i : Int} {top : Value}
    (hn : s.get? n = some .uninit) (hty : b.localTy n = .ok (.tuple fields))
    (htops : Value.ofTy (.tuple fields) = .ok (.tuple tops)) (hi : at? tops i = some top)
    (v : Value) :
    s.write b (Place.part ⟨n, []⟩ i) v = .ok (s.set n (.tuple (tops.set i.toNat v))) := by
  have hwritable : s.writable b n = .ok (.tuple tops) := by
    rw [writable, hn, hty]
    exact htops
  refine (write_part_eq_ok (Place.part_path_ne_nil _ i)).2 ⟨_, _, hwritable, ?_, rfl⟩
  exact Value.update_field_eq_ok.2 ⟨tops, top, v, rfl, hi, rfl, rfl⟩

end State

namespace Body

/-- A deinitialisation that meets no fault marks its place. -/
theorem write_of_run_deinit {b : Body} {loc : Location} {s : State} {p : Place} {e : Effect}
    (h : (Statement.deinit p).run b loc s = .ok e) (hok : e.fault = none) :
    s.write b p .uninit = .ok e.state := by
  obtain rfl : s.store b p .uninit none = e := Except.ok.inj h
  rw [State.store] at hok ⊢
  cases hwrite : s.write b p .uninit with
  | error f => simp [hwrite] at hok
  | ok after => rfl

/-- **Which deinitialised places can be refilled field by field.**  Let the declared type at the end
of a place, a path of fields, be a tuple type with a greatest value, and let the place be
deinitialised without a fault.

* A field of the place can be written, so that the place then holds the greatest value of its type
  with this field replaced, exactly if the place is a whole local.
* In a place inside a local the field can be neither read nor written, since the mark that stands
  there has no fields.
* As a whole the place can be given any value again, wherever it is. -/
theorem deinit_refilled_iff {b : Body} {loc : Location} {s : State} {p : Place} {e : Effect}
    {ty : Ty} {fields : List Ty} {tops : List Value} {i : Int} {field : Ty}
    (hlocal : b.localTy p.base = .ok ty) (hpath : Nested.follow? p.path ty = some (.tuple fields))
    (htops : Value.ofTy (.tuple fields) = .ok (.tuple tops)) (hi : at? fields i = some field)
    (hrun : (Statement.deinit p).run b loc s = .ok e) (hok : e.fault = none) (v : Value) :
    ((∃ s', e.state.write b (p.part i) v = .ok s' ∧
        s'.read p = .ok (.tuple (tops.set i.toNat v))) ↔ p.path = []) ∧
    (p.path ≠ [] → e.state.read (p.part i) = .error (.notIndexable .uninit) ∧
      e.state.write b (p.part i) v = .error (.notIndexable .uninit)) ∧
    ∀ w, ∃ s', e.state.write b p w = .ok s' ∧ s'.read p = .ok w := by
  have hwrite := write_of_run_deinit hrun hok
  have hinside : p.path ≠ [] → e.state.read (p.part i) = .error (.notIndexable .uninit) ∧
      e.state.write b (p.part i) v = .error (.notIndexable .uninit) := by
    intro hne
    have hread : e.state.read (p.part i) = .error (.notIndexable .uninit) :=
      State.read_part_of_read (State.read_of_write hwrite) i
    have hholds : e.state.Holds p.base := State.holds_of_write_part hwrite hne
    -- the local is there, so writing stops where reading does
    rcases State.read_or_write (p := p.part i) hholds (p.part_path_ne_nil i) b v with
      ⟨part, s', hpart, -⟩ | ⟨f, hf, hf'⟩
    · cases hread.symm.trans hpart
    · rw [hread, Except.error.injEq] at hf
      exact ⟨hread, hf ▸ hf'⟩
  refine ⟨⟨?_, ?_⟩, hinside, ?_⟩
  · intro h
    obtain ⟨s', hs', -⟩ := h
    by_contra hne
    cases hs'.symm.trans (hinside hne).2
  · intro hnil
    obtain ⟨n, path⟩ := p
    obtain rfl : path = [] := hnil
    obtain rfl : ty = .tuple fields := Option.some.inj hpath
    have hmark : e.state.get? n = some .uninit := by
      rw [State.write_of_nil rfl, Except.ok.injEq] at hwrite
      rw [← hwrite, State.get?_set_self]
    obtain ⟨items, hitems, htuple⟩ := Value.ofTy_tuple_eq_ok.1 htops
    obtain rfl : items = tops := Value.tuple.inj htuple
    obtain ⟨top, htop, -⟩ := at?_of_forall₂ hitems hi
    refine ⟨_, State.write_part_of_unset hmark hlocal htops htop v, ?_⟩
    exact State.read_eq_ok.2 ⟨_, State.get?_set_self _ n _, rfl⟩
  · intro w
    obtain ⟨s', hs', -⟩ := State.write_of_write hwrite w
    exact ⟨s', hs', State.read_of_write hs'⟩

/-- One local, which is a pair of a pair and a truth value. -/
def pairInside : Body where
  blocks := []
  locals := [⟨.tuple [.tuple [.int 32, .bool], .bool], false⟩]
  argCount := 0

/-- The local is deinitialised as a whole; its first field, the inner pair, can then be given a
value, and the truth value beside it is unknown. -/
theorem deinit_refilled_iff_whole :
    ∃ e, (Statement.deinit ⟨0, []⟩).run pairInside ⟨0, 0⟩ .empty = .ok e ∧ e.fault = none ∧
      ∃ s', e.state.write pairInside ⟨0, [.field 0]⟩ (.tuple [.int (.single 7), .uninit]) = .ok s' ∧
        s'.read ⟨0, []⟩ = .ok (.tuple [.tuple [.int (.single 7), .uninit], .bool .top]) := by
  have hrun : (Statement.deinit ⟨0, []⟩).run pairInside ⟨0, 0⟩ .empty =
      .ok ⟨⟨[(0, .uninit)]⟩, none, none⟩ := rfl
  refine ⟨_, hrun, rfl, ?_⟩
  have htops : Value.ofTy (.tuple [.tuple [.int 32, .bool], .bool]) =
      .ok (.tuple [.tuple [.int .top, .bool .top], .bool .top]) := rfl
  exact (deinit_refilled_iff (b := pairInside) (p := ⟨0, []⟩) (i := 0) rfl rfl htops rfl hrun rfl
    (.tuple [.int (.single 7), .uninit])).1.2 rfl

/-- The inner pair is deinitialised without a fault, and its declared type has a greatest value; yet
its first field cannot be written afterwards. -/
theorem pairInside_not_refilled :
    pairInside.placeTy ⟨0, [.field 0]⟩ = .ok (.tuple [.int 32, .bool]) ∧
      (∃ top, Value.ofTy (.tuple [.int 32, .bool]) = .ok top) ∧
      ∃ e, (Statement.deinit ⟨0, [.field 0]⟩).run pairInside ⟨0, 0⟩ .empty = .ok e ∧
        e.fault = none ∧
        ¬∃ s', e.state.write pairInside ⟨0, [.field 0, .field 0]⟩ (.int (.single 7)) = .ok s' := by
  refine ⟨rfl, ⟨_, rfl⟩, _, rfl, rfl, ?_⟩
  intro h
  obtain ⟨s', hs'⟩ := h
  cases hs'

end Body

end MirRange
