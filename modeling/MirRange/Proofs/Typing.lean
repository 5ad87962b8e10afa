import MirRange.Proofs.Run
import MirRange.Proofs.Shape

/-!
# Typing of bodies

Nothing checks at run time that a value stored in a local fits its declared type.  This file types
statements from the declarations alone and shows that the values of a well-typed body stay within
the declared types, apart from parts that hold no value.

* `Body.WellTyped`: each assignment has the type of its place, each deinitialised place has a type.
* `Value.conforms`: a value fits a type, except that any part of it may hold no value.
* `State.Conforms`: every bound local is declared and its value conforms to its type.
* `State.Conforms.read`, `State.Conforms.write`: reading along the values and typing along the
  declarations stay in step.
* `Statement.run_conforms`: what one statement preserves.
-/

namespace MirRange

/-! ### Well-typed bodies -/

/-- The type of the result of an operator on two operands of one type: integers can be added,
booleans and integers compared. -/
def BinOp.resultTy? : BinOp → Ty → Option Ty
  | .add, .int bits => some (.int bits)
  | .add, .uint bits => some (.uint bits)
  | .eq, .bool | .eq, .int _ | .eq, .uint _ => some .bool
  | .lt, .bool | .lt, .int _ | .lt, .uint _ => some .bool
  | _, _ => none

/-- An rvalue has a type by the declarations of a body.  A checked operation has the pair of its
plain result and a flag. -/
def Rvalue.HasTy (b : Body) (ty : Ty) : Rvalue → Prop
  | .use x => b.operandTy x = .ok ty
  | .binary op left right =>
    ∃ t, b.operandTy left = .ok t ∧ b.operandTy right = .ok t ∧ op.resultTy? t = some ty
  | .checked op left right =>
    ∃ t result, b.operandTy left = .ok t ∧ b.operandTy right = .ok t ∧
      op.resultTy? t = some result ∧ ty = .tuple [result, .bool]
  | _ => False

/-- A place is reached through fields only. -/
def Place.IsFieldOnly (p : Place) : Prop :=
  ∀ step ∈ p.path, ∃ i, step = .field i

/-- An assignment is well typed if its rvalue has the type of its place, a deinitialisation if its
place has a type. -/
def Statement.WellTyped (b : Body) : Statement → Prop
  | .assign p rv => p.IsFieldOnly ∧ ∃ ty, b.placeTy p = .ok ty ∧ rv.HasTy b ty
  | .deinit p => ∃ ty, b.placeTy p = .ok ty
  | _ => True

/-- All statements of a body are well typed. -/
def Body.WellTyped (b : Body) : Prop :=
  ∀ stmts ∈ b.blocks, ∀ stmt ∈ stmts, stmt.WellTyped b

/-! ### Conforming values -/

namespace Value

mutual

/-- Whether a value fits a type, where any part may hold no value. -/
def conforms : Value → Ty → Bool
  | .uninit, _ => true
  | .bool _, .bool => true
  | .int _, .int _ => true
  | .uint _, .uint _ => true
  | .tuple items, .tuple fields => conformsAll items fields
  | _, _ => false

/-- Whether values conform to types, one by one. -/
def conformsAll : List Value → List Ty → Bool
  | [], [] => true
  | v :: vs, t :: ts => conforms v t && conformsAll vs ts
  | _, _ => false

end

mutual

/-- Whether every part of a value holds a value. -/
def isInitialized : Value → Bool
  | .uninit => false
  | .tuple items => areInitialized items
  | _ => true

/-- Whether every part of some values holds a value. -/
def areInitialized : List Value → Bool
  | [] => true
  | v :: vs => isInitialized v && areInitialized vs

end

theorem conformsAll_iff {items : List Value} {fields : List Ty} :
    conformsAll items fields = true ↔
      List.Forall₂ (fun v t => v.conforms t = true) items fields := by
  induction items generalizing fields with
  | nil => cases fields <;> simp [conformsAll]
  | cons v items ih => cases fields <;> simp [conformsAll, ih]

theorem conforms_tuple_iff {items : List Value} {ty : Ty} :
    (Value.tuple items).conforms ty = true ↔
      ∃ fields, ty = .tuple fields ∧
        List.Forall₂ (fun v t => v.conforms t = true) items fields := by
  cases ty <;> simp [conforms, conformsAll_iff]

theorem areInitialized_iff {items : List Value} :
    areInitialized items = true ↔ ∀ v ∈ items, v.isInitialized = true := by
  induction items with
  | nil => simp [areInitialized]
  | cons v items ih => simp [areInitialized, ih]

@[simp] theorem uninit_conforms (ty : Ty) : Value.uninit.conforms ty = true := by
  simp [conforms]

/-- A value that fits a type conforms to it. -/
theorem conforms_of_fits {v : Value} {ty : Ty} (h : v.fits ty = true) : v.conforms ty = true := by
  induction v using nestedInduction generalizing ty with
  | bool t => cases ty <;> first | rfl | exact absurd h Bool.false_ne_true
  | int i => cases ty <;> first | rfl | exact absurd h Bool.false_ne_true
  | uint i => cases ty <;> first | rfl | exact absurd h Bool.false_ne_true
  | tuple items ih =>
    obtain ⟨fields, rfl, hall⟩ := fits_tuple_iff.1 h
    exact conforms_tuple_iff.2 ⟨fields, rfl, forall₂_imp_mem hall fun v hv t ht => ih v hv ht⟩
  | uninit => exact uninit_conforms ty

/-- An initialised value that conforms to a type fits it. -/
theorem fits_of_conforms {v : Value} {ty : Ty} (h : v.conforms ty = true)
    (hv : v.isInitialized = true) : v.fits ty = true := by
  induction v using nestedInduction generalizing ty with
  | bool t => cases ty <;> first | rfl | exact absurd h Bool.false_ne_true
  | int i => cases ty <;> first | rfl | exact absurd h Bool.false_ne_true
  | uint i => cases ty <;> first | rfl | exact absurd h Bool.false_ne_true
  | tuple items ih =>
    obtain ⟨fields, rfl, hall⟩ := conforms_tuple_iff.1 h
    have hitems := areInitialized_iff.1 hv
    exact fits_tuple_iff.2
      ⟨fields, rfl, forall₂_imp_mem hall fun v hv t ht => ih v hv ht (hitems v hv)⟩
  | uninit => exact absurd hv Bool.false_ne_true

/-- A tuple hands its type down to its items. -/
theorem conforms_carried : Nested.Carried fun (v : Value) (t : Ty) => v.conforms t = true := by
  intro v ty items h hitems
  obtain rfl := items?_eq_some.1 hitems
  obtain ⟨fields, rfl, hall⟩ := conforms_tuple_iff.1 h
  exact ⟨fields, rfl, hall⟩

end Value

/-- Replacing the type at the end of a path by itself gives the same type. -/
theorem Body.eq_of_update?_pathTy {path : List Projection} {t ty ty' : Ty}
    (hty : Body.pathTy path ty = .ok t) (h : Nested.update? t path ty = some ty') : ty' = ty := by
  induction path generalizing ty ty' with
  | nil =>
    obtain rfl : ty = t := Except.ok.inj hty
    exact (Option.some.inj h).symm
  | cons step path ih =>
    cases step with
    | field i =>
      obtain ⟨fields, inner, hfields, hinner, hpath⟩ := Body.pathTy_field_eq_ok.1 hty
      obtain ⟨fields', inner', changed, hfields', hinner', hchanged, rfl⟩ :=
        Nested.update?_field_eq_some.1 h
      obtain rfl : fields = fields' := Option.some.inj (hfields.symm.trans hfields')
      obtain rfl : inner = inner' := Option.some.inj (hinner.symm.trans hinner')
      obtain rfl := ih hpath hchanged
      obtain ⟨hlt, hget⟩ := List.getElem?_eq_some_iff.1 (at?_eq_some.1 hinner).2
      rw [← hget, List.set_getElem_self]
      exact (Ty.fields?_eq_some.1 hfields).symm
    | deref => simp [Nested.update?] at h
    | index n => simp [Nested.update?] at h

theorem Body.placeTy_eq_ok {b : Body} {p : Place} {ty : Ty} :
    b.placeTy p = .ok ty ↔ ∃ t, b.localTy p.base = .ok t ∧ Body.pathTy p.path t = .ok ty := by
  rw [Body.placeTy, bind_eq_ok]

/-! ### Conforming states -/

namespace State

/-- Every bound local is declared, and its value conforms to its type. -/
def Conforms (b : Body) (s : State) : Prop :=
  ∀ n v, s.get? n = some v → ∃ ty, b.localTy n = .ok ty ∧ v.conforms ty = true

/-- A write replaces what a local holds: the whole of it, or a part of what the local starts
from. -/
theorem write_eq_ok {b : Body} {s s' : State} {p : Place} {v : Value}
    (h : s.write b p v = .ok s') :
    ∃ changed, s.set p.base changed = s' ∧
      ((p.path = [] ∧ changed = v) ∨
        ∃ current, s.writable b p.base = .ok current ∧
          Nested.update? v p.path current = some changed) := by
  unfold write at h
  split at h
  · rename_i hpath
    exact ⟨v, Except.ok.inj h, .inl ⟨hpath, rfl⟩⟩
  · obtain ⟨current, hcurrent, h⟩ := bind_eq_ok.1 h
    obtain ⟨changed, hchanged, h⟩ := bind_eq_ok.1 h
    exact ⟨changed, Except.ok.inj h, .inr ⟨current, hcurrent, Value.update_eq_ok.1 hchanged⟩⟩

/-- A path into a local starts from its value, or from the greatest value of its type. -/
theorem writable_eq_ok {b : Body} {s : State} {n : Local} {current : Value}
    (h : s.writable b n = .ok current) :
    s.get? n = some current ∨ ∃ ty, b.localTy n = .ok ty ∧ Value.ofTy ty = .ok current := by
  unfold writable at h
  split at h
  · exact .inr (bind_eq_ok.1 h)
  · exact .inr (bind_eq_ok.1 h)
  · rename_i v _ hv
    obtain rfl : v = current := Except.ok.inj h
    exact .inl hv

theorem read_eq_ok {s : State} {p : Place} {v : Value} :
    s.read p = .ok v ↔ ∃ w, s.get? p.base = some w ∧ Nested.follow? p.path w = some v := by
  unfold read
  cases s.get? p.base with
  | none => simp
  | some w => simp [Value.follow_eq_ok]

variable {b : Body} {s : State}

theorem Conforms.set (hs : s.Conforms b) {n : Local} {v : Value} {ty : Ty}
    (hty : b.localTy n = .ok ty) (hv : v.conforms ty = true) : (s.set n v).Conforms b := by
  intro k w hk
  by_cases hnk : n = k
  · subst hnk
    rw [get?_set_self, Option.some.injEq] at hk
    subst hk
    exact ⟨ty, hty, hv⟩
  · rw [get?_set_of_ne s v hnk] at hk
    exact hs k w hk

/-- **Reading stays in step with typing**: a place that can be read has a type, and the value read
conforms to it. -/
theorem Conforms.read (hs : s.Conforms b) {p : Place} {v : Value} (h : s.read p = .ok v) :
    ∃ ty, b.placeTy p = .ok ty ∧ v.conforms ty = true := by
  obtain ⟨w, hw, hpath⟩ := read_eq_ok.1 h
  obtain ⟨t, ht, hwt⟩ := hs p.base w hw
  obtain ⟨ty, hty, hv⟩ := Nested.follow?_carried Value.conforms_carried hwt hpath
  exact ⟨ty, Body.placeTy_eq_ok.2 ⟨t, ht, Body.pathTy_of_follow? hty⟩, hv⟩

/-- What a path into a local starts from conforms to the type of the local. -/
theorem Conforms.writable (hs : s.Conforms b) {n : Local} {current : Value}
    (h : s.writable b n = .ok current) {ty : Ty} (hty : b.localTy n = .ok ty) :
    current.conforms ty = true := by
  rcases writable_eq_ok h with hn | ⟨t, ht, hof⟩
  · obtain ⟨t, ht, hcurrent⟩ := hs n current hn
    obtain rfl : t = ty := Except.ok.inj (ht.symm.trans hty)
    exact hcurrent
  · obtain rfl : t = ty := Except.ok.inj (ht.symm.trans hty)
    exact Value.conforms_of_fits (Value.fits_of_ofTy hof)

/-- **Writing stays in step with typing**: a value of the type of a place can be written there, at
any depth and into a local without a value. -/
theorem Conforms.write (hs : s.Conforms b) {p : Place} {v : Value} {ty : Ty}
    (hty : b.placeTy p = .ok ty) (hv : v.conforms ty = true) {s' : State}
    (h : s.write b p v = .ok s') : s'.Conforms b := by
  obtain ⟨t, ht, hpath⟩ := Body.placeTy_eq_ok.1 hty
  obtain ⟨changed, rfl, ⟨hnil, rfl⟩ | ⟨current, hcurrent, hchanged⟩⟩ := write_eq_ok h
  · rw [hnil] at hpath
    obtain rfl : t = ty := Except.ok.inj hpath
    exact hs.set ht hv
  · -- the part is replaced in the value and, by its own type, in the type of the local
    obtain ⟨t', ht', hconf⟩ := Nested.update?_carried Value.conforms_carried
      (fun hall => Value.conforms_tuple_iff.2 ⟨_, rfl, hall⟩) hv (hs.writable hcurrent ht) hchanged
    obtain rfl := Body.eq_of_update?_pathTy hpath ht'
    exact hs.set ht hconf

end State

/-! ### Operators, operands and rvalues -/

/-- The ways in which an operator applies to two values. -/
inductive BinOp.Applies : BinOp → Value → Value → Value → Prop
  | addInt (i j : Interval) : Applies .add (.int i) (.int j) (.int (i.add j))
  | addUint (i j : Interval) : Applies .add (.uint i) (.uint j) (.uint (i.add j))
  | eqBool (s t : Truth) : Applies .eq (.bool s) (.bool t) (.bool (s.equals t))
  | eqInt (i j : Interval) : Applies .eq (.int i) (.int j) (.bool (i.equals j))
  | eqUint (i j : Interval) : Applies .eq (.uint i) (.uint j) (.bool (i.equals j))
  | ltInt (i j : Interval) : Applies .lt (.int i) (.int j) (.bool (i.lessThan j))
  | ltUint (i j : Interval) : Applies .lt (.uint i) (.uint j) (.bool (i.lessThan j))

theorem BinOp.applies_of_apply {op : BinOp} {l r v : Value} (h : op.apply l r = .ok v) :
    op.Applies l r v := by
  unfold BinOp.apply at h
  split at h <;> cases h <;> constructor

/-- The result of an operator has the type that the operands' type gives. -/
theorem BinOp.apply_conforms {op : BinOp} {l r v : Value} {t ty : Ty}
    (hty : op.resultTy? t = some ty) (hl : l.conforms t = true) (h : op.apply l r = .ok v) :
    v.conforms ty = true := by
  cases BinOp.applies_of_apply h <;> cases t <;>
    simp only [BinOp.resultTy?, Value.conforms, Option.some.injEq, reduceCtorEq,
      Bool.false_eq_true] at hty hl <;> subst hty <;> rfl

theorem Const.eval_eq_ok {c : Const} {v : Value} (h : c.eval = .ok v) :
    c.ty = .bool ∧ ∃ t, Truth.ofConst c = .ok t ∧ v = .bool t := by
  unfold Const.eval at h
  split at h
  · rename_i hty
    obtain ⟨t, ht, rfl⟩ := map_eq_ok.1 (mapError_eq_ok.1 h)
    exact ⟨hty, t, ht, rfl⟩
  · cases h

theorem BinOp.eval_eq_ok {op : BinOp} {s : State} {left right : Operand} {l r v : Value} :
    op.eval s left right = .ok (l, r, v) ↔
      left.eval s = .ok l ∧ right.eval s = .ok r ∧ op.apply l r = .ok v := by
  simp only [BinOp.eval, bind_eq_ok, mapError_eq_ok, pure, Except.pure, Except.ok.injEq,
    Prod.mk.injEq]
  constructor
  · rintro ⟨l', hl, r', hr, v', hv, rfl, rfl, rfl⟩
    exact ⟨hl, hr, hv⟩
  · rintro ⟨hl, hr, hv⟩
    exact ⟨l, hl, r, hr, v, hv, rfl, rfl, rfl⟩

/-- An operand that can be evaluated has a type, and its value conforms to it. -/
theorem Operand.eval_conforms {b : Body} {s : State} (hs : s.Conforms b) {x : Operand} {v : Value}
    (h : x.eval s = .ok v) : ∃ ty, b.operandTy x = .ok ty ∧ v.conforms ty = true := by
  cases x with
  | copy p => exact hs.read (mapError_eq_ok.1 h)
  | move p => exact hs.read (mapError_eq_ok.1 h)
  | const c =>
    obtain ⟨hty, t, -, rfl⟩ := Const.eval_eq_ok h
    exact ⟨c.ty, rfl, by rw [hty]; rfl⟩

/-- An observed addition is one of integers: its type is an integer type, and both operands are
intervals of that signedness. -/
def CheckedOp.IsIntegerAddition (c : CheckedOp) : Prop :=
  (∃ bits i j, c.ty = .int bits ∧ c.left = .int i ∧ c.right = .int j) ∨
    ∃ bits i j, c.ty = .uint bits ∧ c.left = .uint i ∧ c.right = .uint j

/-- What an rvalue can evaluate to. -/
theorem Rvalue.eval_eq_ok {b : Body} {loc : Location} {s : State} {rv : Rvalue} {v : Value}
    {observed : Option CheckedOp} (h : rv.eval b loc s = .ok (v, observed)) :
    (∃ x, rv = .use x ∧ x.eval s = .ok v ∧ observed = none) ∨
    (∃ op left right l r, rv = .binary op left right ∧ op.eval s left right = .ok (l, r, v) ∧
      observed = none) ∨
    ∃ op left right l r w ty, rv = .checked op left right ∧
      op.eval s left right = .ok (l, r, w) ∧ b.operandTy left = .ok ty ∧
      v = .tuple [w, .bool .false] ∧ observed = some ⟨loc, op, l, r, ty⟩ := by
  cases rv with
  | use x =>
    obtain ⟨w, hw, h⟩ := bind_eq_ok.1 h
    cases h
    exact .inl ⟨x, rfl, hw, rfl⟩
  | binary op left right =>
    obtain ⟨⟨l, r, w⟩, hw, h⟩ := bind_eq_ok.1 h
    cases h
    exact .inr (.inl ⟨op, left, right, l, r, rfl, hw, rfl⟩)
  | checked op left right =>
    obtain ⟨⟨l, r, w⟩, hw, h⟩ := bind_eq_ok.1 h
    obtain ⟨ty, hty, h⟩ := bind_eq_ok.1 h
    cases h
    exact .inr (.inr ⟨op, left, right, l, r, w, ty, rfl, hw, mapError_eq_ok.1 hty, rfl, rfl⟩)
  | unary op x => cases h
  | ref place isMut => cases h
  | aggregate items => cases h
  | cast x ty => cases h

/-- **An rvalue of a type evaluates to a value of that type**, and an addition observed on the way
is one of integers. -/
theorem Rvalue.eval_conforms {b : Body} {loc : Location} {s : State} (hs : s.Conforms b)
    {rv : Rvalue} {ty : Ty} (hrv : rv.HasTy b ty) {v : Value} {observed : Option CheckedOp}
    (h : rv.eval b loc s = .ok (v, observed)) :
    v.conforms ty = true ∧ ∀ c, observed = some c → c.op = .add → c.IsIntegerAddition := by
  rcases Rvalue.eval_eq_ok h with ⟨x, rfl, hx, rfl⟩ | ⟨op, left, right, l, r, rfl, hop, rfl⟩ |
    ⟨op, left, right, l, r, w, t, rfl, hop, ht, rfl, rfl⟩
  · obtain ⟨t, ht, hv⟩ := Operand.eval_conforms hs hx
    obtain rfl : t = ty := Except.ok.inj (ht.symm.trans hrv)
    exact ⟨hv, fun c hc => by cases hc⟩
  · obtain ⟨t, hleft, -, hresult⟩ := hrv
    obtain ⟨hl, -, hv⟩ := BinOp.eval_eq_ok.1 hop
    obtain ⟨t', ht', hlt⟩ := Operand.eval_conforms hs hl
    obtain rfl : t' = t := Except.ok.inj (ht'.symm.trans hleft)
    exact ⟨BinOp.apply_conforms hresult hlt hv, fun c hc => by cases hc⟩
  · obtain ⟨t₁, result, hleft, -, hresult, rfl⟩ := hrv
    obtain rfl : t = t₁ := Except.ok.inj (ht.symm.trans hleft)
    obtain ⟨hl, -, hv⟩ := BinOp.eval_eq_ok.1 hop
    obtain ⟨t', ht', hlt⟩ := Operand.eval_conforms hs hl
    obtain rfl : t' = t := Except.ok.inj (ht'.symm.trans hleft)
    have hw := BinOp.apply_conforms hresult hlt hv
    refine ⟨Value.conforms_tuple_iff.2 ⟨_, rfl, .cons hw (.cons rfl .nil)⟩, ?_⟩
    rintro c hc hadd
    cases hc
    obtain rfl : op = .add := hadd
    cases BinOp.applies_of_apply hv with
    | addInt i j =>
      cases t' <;> simp only [Value.conforms, Bool.false_eq_true] at hlt
      exact .inl ⟨_, i, j, rfl, rfl, rfl⟩
    | addUint i j =>
      cases t' <;> simp only [Value.conforms, Bool.false_eq_true] at hlt
      exact .inr ⟨_, i, j, rfl, rfl, rfl⟩

/-! ### Statements -/

/-- What a statement can do: write the value of its rvalue, write that there is no value, or leave
the state as it is with a fault. -/
theorem Statement.run_eq_ok {b : Body} {loc : Location} {s : State} {stmt : Statement} {e : Effect}
    (h : stmt.run b loc s = .ok e) :
    (∃ p rv v observed, stmt = .assign p rv ∧ rv.eval b loc s = .ok (v, observed) ∧
      e = s.store b p v observed) ∨
    (∃ p, stmt = .deinit p ∧ e = s.store b p .uninit none) ∨
    ∃ f, e = ⟨s, none, some f⟩ := by
  cases stmt with
  | assign p rv =>
    rw [Statement.run] at h
    split at h
    · rename_i v observed hrv
      cases h
      exact .inl ⟨p, rv, v, observed, rfl, hrv, rfl⟩
    · cases h
      exact .inr (.inr ⟨_, rfl⟩)
    · cases h
  | deinit p =>
    cases h
    exact .inr (.inl ⟨p, rfl, rfl⟩)
  | storageLive n => cases h; exact .inr (.inr ⟨_, rfl⟩)
  | storageDead n => cases h; exact .inr (.inr ⟨_, rfl⟩)
  | nop => cases h; exact .inr (.inr ⟨_, rfl⟩)

@[simp] theorem State.store_observed (b : Body) (s : State) (p : Place) (v : Value)
    (observed : Option CheckedOp) : (s.store b p v observed).observed = observed := by
  unfold State.store
  split <;> rfl

/-- Storing a value of the type of a place keeps a conforming state, whether the write succeeds or
not. -/
theorem State.Conforms.store {b : Body} {s : State} (hs : s.Conforms b) {p : Place} {v : Value}
    {ty : Ty} (hty : b.placeTy p = .ok ty) (hv : v.conforms ty = true)
    (observed : Option CheckedOp) : (s.store b p v observed).state.Conforms b := by
  unfold State.store
  split
  · rename_i s' hs'
    exact hs.write hty hv hs'
  · exact hs

/-- **What one statement preserves**: a well-typed statement keeps a conforming state, and an
addition observed in it is one of integers. -/
theorem Statement.run_conforms {b : Body} {loc : Location} {s : State} {stmt : Statement}
    {e : Effect} (hstmt : stmt.WellTyped b) (hs : s.Conforms b) (h : stmt.run b loc s = .ok e) :
    e.state.Conforms b ∧ ∀ c, e.observed = some c → c.op = .add → c.IsIntegerAddition := by
  rcases Statement.run_eq_ok h with ⟨p, rv, v, observed, rfl, hrv, rfl⟩ | ⟨p, rfl, rfl⟩ | ⟨f, rfl⟩
  · obtain ⟨-, ty, hty, hrvty⟩ := hstmt
    obtain ⟨hv, hobserved⟩ := Rvalue.eval_conforms hs hrvty hrv
    rw [State.store_observed]
    exact ⟨hs.store hty hv observed, hobserved⟩
  · obtain ⟨ty, hty⟩ := hstmt
    refine ⟨hs.store hty (Value.uninit_conforms ty) none, ?_⟩
    intro c hc
    rw [State.store_observed] at hc
    cases hc
  · exact ⟨hs, fun c hc => by cases hc⟩

/-! ### A well-typed body -/

/-- A body that fills a nested local field by field and then adds from it, with two arguments:
`_3.1.1 = _1; _3.1.0 = _1 < _2; deinit _3.0` in a first block, and the checked sum
`_0 = _3.1.1 + _2` in a second one. -/
def Body.refill : Body where
  blocks := [
    [.assign ⟨3, [.field 1, .field 1]⟩ (.use (.copy ⟨1, []⟩)),
      .assign ⟨3, [.field 1, .field 0]⟩ (.binary .lt (.copy ⟨1, []⟩) (.copy ⟨2, []⟩)),
      .deinit ⟨3, [.field 0]⟩],
    [.assign ⟨0, []⟩ (.checked .add (.move ⟨3, [.field 1, .field 1]⟩) (.copy ⟨2, []⟩))]]
  locals := [⟨.tuple [.uint 8, .bool], false⟩, ⟨.uint 8, false⟩, ⟨.uint 8, false⟩,
    ⟨.tuple [.uint 8, .tuple [.bool, .uint 8]], true⟩]
  argCount := 2

/-- Arguments for `refill`: from 100 to a greatest number, and from 50 to 60. -/
def Body.refillArgs (greatest : Int) : List Value :=
  [.uint (.between 100 greatest), .uint (.between 50 60)]

theorem Body.refill_wellTyped : Body.refill.WellTyped := by
  intro stmts hstmts stmt hstmt
  rcases List.mem_cons.1 hstmts with rfl | hstmts
  · rcases List.mem_cons.1 hstmt with rfl | hstmt
    · exact ⟨by simp [Place.IsFieldOnly], .uint 8, rfl, rfl⟩
    rcases List.mem_cons.1 hstmt with rfl | hstmt
    · exact ⟨by simp [Place.IsFieldOnly], .bool, rfl, .uint 8, rfl, rfl, rfl⟩
    obtain rfl := List.mem_singleton.1 hstmt
    exact ⟨.uint 8, rfl⟩
  · obtain rfl := List.mem_singleton.1 hstmts
    obtain rfl := List.mem_singleton.1 hstmt
    exact ⟨by simp [Place.IsFieldOnly], .tuple [.uint 8, .bool], rfl, .uint 8, .uint 8, rfl, rfl,
      rfl, rfl⟩

end MirRange
