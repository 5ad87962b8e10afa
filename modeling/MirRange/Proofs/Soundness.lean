import MirRange.Proofs.Execution

/-!
# Abstract runs cover executions

A value stands for a set of data, and a state for the stores whose locals hold data that the bound
values stand for.  A run without faults covers the executions of the same statements as long as no
addition of theirs wraps around: the executions do not get stuck, and the state reached covers every
store reached.

* `Value.admits`: the data that a value stands for; a part without a value stands for any datum.
* `State.Covers`: a store is typed, and every bound local holds a datum that its value admits.
* `Statement.step_covers`: what one statement does to a covered store.
* `Run.blocks_simulates`: the same for whole runs, in any arithmetic.
* `Body.exists_covered_of_executes`: the store at any point of an execution is covered.
* `Body.interpret_sound`: on mathematical integers, every run without faults is sound.
-/

namespace MirRange

namespace Value

/-! ### The data that a value stands for -/

mutual

/-- Whether a datum is among those that a value stands for. -/
def admits : Value → Datum → Bool
  | .bool t, .bool x => t.admits x
  | .int i, .int n => i.contains n
  | .uint i, .int n => i.contains n
  | .tuple vs, .tuple ds => admitsAll vs ds
  | .uninit, _ => true
  | _, _ => false

/-- Whether data are among those that values stand for, one by one. -/
def admitsAll : List Value → List Datum → Bool
  | [], [] => true
  | v :: vs, d :: ds => admits v d && admitsAll vs ds
  | _, _ => false

end

theorem admitsAll_iff {vs : List Value} {ds : List Datum} :
    admitsAll vs ds = true ↔ List.Forall₂ (fun v d => v.admits d = true) vs ds := by
  induction vs generalizing ds with
  | nil => cases ds <;> simp [admitsAll]
  | cons v vs ih => cases ds <;> simp [admitsAll, ih]

theorem admits_tuple_iff {vs : List Value} {d : Datum} :
    (Value.tuple vs).admits d = true ↔
      ∃ ds, d = .tuple ds ∧ List.Forall₂ (fun v d => v.admits d = true) vs ds := by
  cases d <;> simp [admits, admitsAll_iff]

@[simp] theorem uninit_admits (d : Datum) : Value.uninit.admits d = true := by
  simp [admits]

theorem bool_admits_iff {t : Truth} {d : Datum} :
    (Value.bool t).admits d = true ↔ ∃ x, d = .bool x ∧ t.admits x = true := by
  cases d <;> simp [admits]

theorem int_admits_iff {i : Interval} {d : Datum} :
    (Value.int i).admits d = true ↔ ∃ n, d = .int n ∧ i.contains n = true := by
  cases d <;> simp [admits]

theorem uint_admits_iff {i : Interval} {d : Datum} :
    (Value.uint i).admits d = true ↔ ∃ n, d = .int n ∧ i.contains n = true := by
  cases d <;> simp [admits]

/-- A tuple of values hands down what it stands for to its items. -/
theorem admits_carried : Nested.Carried fun (v : Value) (d : Datum) => v.admits d = true := by
  intro v d items h hitems
  obtain rfl := items?_eq_some.1 hitems
  obtain ⟨ds, rfl, hall⟩ := admits_tuple_iff.1 h
  exact ⟨ds, rfl, hall⟩

/-- The greatest value of a type stands for all data of the type. -/
theorem admits_of_ofTy {M : Arithmetic} {ty : Ty} {top : Value} (h : ofTy ty = .ok top) :
    ∀ d : Datum, d.hasTy M ty = true → top.admits d = true := by
  refine ofTyInduction (P := fun ty top => ∀ d : Datum, d.hasTy M ty = true → top.admits d = true)
    ?_ ?_ ?_ ?_ h
  · intro d hd
    cases d <;> first | rfl | exact absurd hd Bool.false_ne_true
  · intro bits d hd
    cases d <;> first | rfl | exact absurd hd Bool.false_ne_true
  · intro bits d hd
    cases d <;> first | rfl | exact absurd hd Bool.false_ne_true
  · intro fields tops hall d hd
    obtain ⟨ds, rfl, hds⟩ := Datum.hasTy_tupleTy_iff.1 hd
    exact admits_tuple_iff.2
      ⟨ds, rfl, forall₂_comp hall.flip hds.flip fun _ _ _ hadmits hd => hadmits _ hd⟩

end Value

/-! ### Covered stores -/

/-- A store whose locals hold data of their types, the bound ones data that their values stand
for. -/
structure State.Covers (M : Arithmetic) (b : Body) (s : State) (σ : Store) : Prop where
  typed : σ.Typed M b
  admits : ∀ n v, s.get? n = some v → v.admits (σ n) = true

/-- A store that holds, in the argument locals, data that given arguments stand for. -/
def Store.Matches (σ : Store) (args : List Value) : Prop :=
  ∀ (i : Nat) v, args[i]? = some v → v.admits (σ ((i : Int) + 1)) = true

theorem Store.matches_ofData {args : List Value} {d : Datum} (ds : List Datum) {rest : List Datum}
    (h : List.Forall₂ (fun v d => v.admits d = true) args ds) :
    (Store.ofData (d :: (ds ++ rest))).Matches args := by
  intro i v hv
  obtain ⟨x, hx, hadmits⟩ := getElem?_of_forall₂ h hv
  obtain ⟨hi, -⟩ := List.getElem?_eq_some_iff.1 hx
  have hat : at? (d :: (ds ++ rest)) ((i : Int) + 1) = some x := by
    refine at?_eq_some.2 ⟨by omega, ?_⟩
    rw [show ((i : Int) + 1).toNat = i + 1 by omega, List.getElem?_cons_succ,
      List.getElem?_append_left hi]
    exact hx
  rw [Store.ofData_of_at? hat]
  exact hadmits

namespace State

variable {M : Arithmetic} {b : Body} {s : State} {σ : Store}

/-- The state that a run starts from covers the stores that match its arguments. -/
theorem covers_of_seed {args : List Value} (h : b.seed args = .ok s) (hσ : σ.Typed M b)
    (hargs : σ.Matches args) : s.Covers M b σ := by
  refine ⟨hσ, ?_⟩
  intro n v hn
  obtain ⟨i, rfl, hi, -⟩ := Body.get?_seed h hn
  exact hargs i v hi

theorem Covers.read (hs : s.Covers M b σ) {p : Place} {v : Value} (h : s.read p = .ok v) :
    ∃ d, σ.read? p = some d ∧ v.admits d = true := by
  obtain ⟨w, hw, hpath⟩ := read_eq_ok.1 h
  exact Nested.follow?_carried Value.admits_carried (hs.admits p.base w hw) hpath

/-- What a path into a local starts from stands for the datum of the local, whether the local is
bound or not. -/
theorem Covers.writable (hs : s.Covers M b σ) {n : Local} {current : Value}
    (h : s.writable b n = .ok current) : current.admits (σ n) = true := by
  rcases writable_eq_ok h with hn | ⟨ty, hty, hof⟩
  · exact hs.admits n current hn
  · exact Value.admits_of_ofTy hof _ (hs.typed n ty hty)

theorem Covers.write (hs : s.Covers M b σ) {p : Place} {v : Value} {s' : State}
    (h : s.write b p v = .ok s') {d : Datum} (hd : v.admits d = true) :
    ∃ σ', σ.write? p d = some σ' ∧ ∀ n w, s'.get? n = some w → w.admits (σ' n) = true := by
  obtain ⟨changed, rfl, hchanged⟩ := write_eq_ok h
  have hupdate : ∃ d', Nested.update? d p.path (σ p.base) = some d' ∧ changed.admits d' = true := by
    rcases hchanged with ⟨hnil, rfl⟩ | ⟨current, hcurrent, hchanged⟩
    · rw [hnil]
      exact ⟨d, rfl, hd⟩
    · exact Nested.update?_carried Value.admits_carried
        (fun hall => Value.admits_tuple_iff.2 ⟨_, rfl, hall⟩) hd (hs.writable hcurrent) hchanged
  obtain ⟨d', hd', hadmits⟩ := hupdate
  refine ⟨σ.set p.base d', Option.map_eq_some_iff.2 ⟨d', hd', rfl⟩, ?_⟩
  intro n w hw
  by_cases hn : p.base = n
  · subst hn
    rw [get?_set_self, Option.some.injEq] at hw
    rw [Store.set_self, ← hw]
    exact hadmits
  · rw [get?_set_of_ne s changed hn] at hw
    rw [Store.set_of_ne σ d' (Ne.symm hn)]
    exact hs.admits n w hw

end State

/-! ### Operands, operators and rvalues -/

/-- An addition made by a statement is exact: it does not wrap around, and raises no flag. -/
def Statement.AddsExactly (M : Arithmetic) (b : Body) (σ : Store) (stmt : Statement) : Prop :=
  ∀ ty m n, stmt.Adds b σ ty m n → M.sum ty m n = m + n ∧ M.carry ty m n = false

section

variable {M : Arithmetic} {b : Body} {s : State} {σ : Store}

theorem Const.eval_admits {c : Const} {v : Value} (h : c.eval = .ok v) :
    ∃ d, c.datum? = some d ∧ v.admits d = true := by
  obtain ⟨hty, t, ht, rfl⟩ := Const.eval_eq_ok h
  obtain ⟨ty, bytes, kind⟩ := c
  obtain rfl : ty = .bool := hty
  unfold Truth.ofConst at ht
  split at ht
  · cases ht
  · split at ht
    · cases ht
    · rename_i hkind
      obtain rfl : kind = .allocated := Decidable.not_not.1 hkind
      split at ht
      · rename_i n hbytes
        cases ht
        obtain rfl : bytes = [some n] := hbytes
        exact ⟨.bool (n != 0), rfl, Truth.admits_ofBool _⟩
      · cases ht

theorem Operand.eval_admits (hs : s.Covers M b σ) {x : Operand} {v : Value}
    (h : x.eval s = .ok v) : ∃ d, x.datum? σ = some d ∧ v.admits d = true := by
  cases x with
  | copy p => exact hs.read (mapError_eq_ok.1 h)
  | move p => exact hs.read (mapError_eq_ok.1 h)
  | const c => exact Const.eval_admits h

/-- **The operators are sound**: the result on values stands for the result on data, if an addition
is exact; and then no flag is raised. -/
theorem BinOp.apply_admits {op : BinOp} {l r v : Value} (ty : Ty) (h : op.apply l r = .ok v)
    {x y : Datum} (hl : l.admits x = true) (hr : r.admits y = true)
    (hexact : ∀ m n, op = .add → x = .int m → y = .int n →
      M.sum ty m n = m + n ∧ M.carry ty m n = false) :
    ∃ d, op.datum? M ty x y = some d ∧ v.admits d = true ∧ op.flag M ty x y = false := by
  cases BinOp.applies_of_apply h with
  | addInt i j =>
    obtain ⟨m, rfl, hm⟩ := Value.int_admits_iff.1 hl
    obtain ⟨n, rfl, hn⟩ := Value.int_admits_iff.1 hr
    obtain ⟨hsum, hcarry⟩ := hexact m n rfl rfl rfl
    exact ⟨_, rfl, Value.int_admits_iff.2 ⟨_, rfl, hsum ▸ Interval.contains_add hm hn⟩, hcarry⟩
  | addUint i j =>
    obtain ⟨m, rfl, hm⟩ := Value.uint_admits_iff.1 hl
    obtain ⟨n, rfl, hn⟩ := Value.uint_admits_iff.1 hr
    obtain ⟨hsum, hcarry⟩ := hexact m n rfl rfl rfl
    exact ⟨_, rfl, Value.uint_admits_iff.2 ⟨_, rfl, hsum ▸ Interval.contains_add hm hn⟩, hcarry⟩
  | eqBool t u =>
    obtain ⟨p, rfl, hp⟩ := Value.bool_admits_iff.1 hl
    obtain ⟨q, rfl, hq⟩ := Value.bool_admits_iff.1 hr
    exact ⟨_, rfl, Value.bool_admits_iff.2 ⟨_, rfl, Truth.equals_admits hp hq⟩, rfl⟩
  | eqInt i j =>
    obtain ⟨m, rfl, hm⟩ := Value.int_admits_iff.1 hl
    obtain ⟨n, rfl, hn⟩ := Value.int_admits_iff.1 hr
    exact ⟨_, rfl, Value.bool_admits_iff.2 ⟨_, rfl, Interval.equals_admits hm hn⟩, rfl⟩
  | eqUint i j =>
    obtain ⟨m, rfl, hm⟩ := Value.uint_admits_iff.1 hl
    obtain ⟨n, rfl, hn⟩ := Value.uint_admits_iff.1 hr
    exact ⟨_, rfl, Value.bool_admits_iff.2 ⟨_, rfl, Interval.equals_admits hm hn⟩, rfl⟩
  | ltInt i j =>
    obtain ⟨m, rfl, hm⟩ := Value.int_admits_iff.1 hl
    obtain ⟨n, rfl, hn⟩ := Value.int_admits_iff.1 hr
    exact ⟨_, rfl, Value.bool_admits_iff.2 ⟨_, rfl, Interval.lessThan_admits hm hn⟩, rfl⟩
  | ltUint i j =>
    obtain ⟨m, rfl, hm⟩ := Value.uint_admits_iff.1 hl
    obtain ⟨n, rfl, hn⟩ := Value.uint_admits_iff.1 hr
    exact ⟨_, rfl, Value.bool_admits_iff.2 ⟨_, rfl, Interval.lessThan_admits hm hn⟩, rfl⟩

/-- An rvalue gives one datum. -/
theorem Rvalue.Gives.unique {rv : Rvalue} {d d' : Datum} (h : rv.Gives M b σ d)
    (h' : rv.Gives M b σ d') : d = d' := by
  cases h with
  | use hx =>
    cases h' with
    | use hx' => exact Option.some.inj (hx.symm.trans hx')
  | binary hty hl hr hd =>
    cases h' with
    | binary hty' hl' hr' hd' =>
      cases hty.symm.trans hty'
      cases hl.symm.trans hl'
      cases hr.symm.trans hr'
      exact Option.some.inj (hd.symm.trans hd')
  | checked hty hl hr hd =>
    cases h' with
    | checked hty' hl' hr' hd' =>
      cases hty.symm.trans hty'
      cases hl.symm.trans hl'
      cases hr.symm.trans hr'
      cases hd.symm.trans hd'
      rfl

/-- An rvalue of a type gives a datum that its value stands for. -/
theorem Rvalue.eval_admits (hs : s.Covers M b σ) {loc : Location} {p : Place} {rv : Rvalue}
    {ty : Ty} (hrv : rv.HasTy b ty) {v : Value} {observed : Option CheckedOp}
    (h : rv.eval b loc s = .ok (v, observed))
    (hexact : (Statement.assign p rv).AddsExactly M b σ) :
    ∃ d, rv.Gives M b σ d ∧ v.admits d = true := by
  rcases Rvalue.eval_eq_ok h with ⟨x, rfl, hx, -⟩ | ⟨op, left, right, l, r, rfl, hop, -⟩ |
    ⟨op, left, right, l, r, w, t, rfl, hop, ht, rfl, -⟩
  · obtain ⟨d, hd, hv⟩ := Operand.eval_admits hs hx
    exact ⟨d, .use hd, hv⟩
  · obtain ⟨t, ht, -, -⟩ := hrv
    obtain ⟨hl, hr, hv⟩ := BinOp.eval_eq_ok.1 hop
    obtain ⟨x, hx, hlx⟩ := Operand.eval_admits hs hl
    obtain ⟨y, hy, hry⟩ := Operand.eval_admits hs hr
    obtain ⟨d, hd, hvd, -⟩ := BinOp.apply_admits (M := M) t hv hlx hry (by
      rintro m n rfl rfl rfl
      exact hexact t m n (.binary ht hx hy))
    exact ⟨d, .binary ht hx hy hd, hvd⟩
  · obtain ⟨hl, hr, hv⟩ := BinOp.eval_eq_ok.1 hop
    obtain ⟨x, hx, hlx⟩ := Operand.eval_admits hs hl
    obtain ⟨y, hy, hry⟩ := Operand.eval_admits hs hr
    obtain ⟨d, hd, hvd, hflag⟩ := BinOp.apply_admits (M := M) t hv hlx hry (by
      rintro m n rfl rfl rfl
      exact hexact t m n (.checked ht hx hy))
    refine ⟨_, .checked ht hx hy hd, Value.admits_tuple_iff.2 ⟨_, rfl, .cons hvd ?_⟩⟩
    rw [hflag]
    exact .cons rfl .nil

end

/-! ### Statements and runs -/

section

variable {M : Arithmetic} {b : Body} {s : State} {σ : Store}

theorem State.store_faultless {p : Place} {v : Value} {observed : Option CheckedOp}
    (h : (s.store b p v observed).fault = none) :
    s.write b p v = .ok (s.store b p v observed).state := by
  unfold State.store at h ⊢
  split
  · rename_i hwrite
    exact hwrite
  · rename_i f hwrite
    rw [hwrite] at h
    cases h

/-- **What one statement does to a covered store**: if it has no fault and adds exactly, it leads
somewhere, and wherever it leads is covered. -/
theorem Statement.step_covers {stmt : Statement} {loc : Location} {e : Effect}
    (hstmt : stmt.WellTyped b) (hs : s.Covers M b σ) (h : stmt.run b loc s = .ok e)
    (hf : e.fault = none) (hexact : stmt.AddsExactly M b σ) :
    (∃ σ', stmt.Step M b σ σ') ∧ ∀ σ', stmt.Step M b σ σ' → e.state.Covers M b σ' := by
  rcases Statement.run_eq_ok h with ⟨p, rv, v, observed, rfl, hrv, rfl⟩ | ⟨p, rfl, rfl⟩ | ⟨f, rfl⟩
  · obtain ⟨-, ty, -, hrvty⟩ := id hstmt
    obtain ⟨d, hd, hvd⟩ := Rvalue.eval_admits hs hrvty hrv hexact
    obtain ⟨σ₁, hσ₁, hadmits⟩ := hs.write (State.store_faultless hf) hvd
    refine ⟨⟨σ₁, .assign hd hσ₁⟩, ?_⟩
    intro σ' hstep
    refine ⟨hstep.typed hstmt hs.typed, ?_⟩
    cases hstep with
    | assign hd' hσ' =>
      obtain rfl := hd.unique hd'
      obtain rfl := Option.some.inj (hσ₁.symm.trans hσ')
      exact hadmits
  · obtain ⟨ty, hty⟩ := id hstmt
    have hwrite : ∀ d, ∃ σ', σ.write? p d = some σ' ∧
        ∀ n w, (s.store b p .uninit none).state.get? n = some w → w.admits (σ' n) = true :=
      fun d => hs.write (State.store_faultless hf) (Value.uninit_admits d)
    constructor
    · -- the place may keep the datum it has
      obtain ⟨σ₀, hσ₀, -⟩ := hwrite (σ p.base)
      obtain ⟨_, hupdate, -⟩ := Option.map_eq_some_iff.1 hσ₀
      obtain ⟨d, hd⟩ : ∃ d, σ.read? p = some d := Nested.exists_follow?_of_update? hupdate
      obtain ⟨σ₁, hσ₁, -⟩ := hwrite d
      exact ⟨σ₁, .deinit hty (hs.typed.read hty hd) hσ₁⟩
    · intro σ' hstep
      refine ⟨hstep.typed hstmt hs.typed, ?_⟩
      cases hstep with
      | deinit hty' hd hσ' =>
        obtain ⟨σ₁, hσ₁, hadmits⟩ := hwrite _
        obtain rfl := Option.some.inj (hσ₁.symm.trans hσ')
        exact hadmits
  · cases hf

end

/-- A state covers the ends of all executions of some statements from a store; and if every
statement is allowed everywhere, there are such executions. -/
structure Simulates (M : Arithmetic) (b : Body) (allowed : Store → Statement → Prop) (σ : Store)
    (stmts : List Statement) (s : State) : Prop where
  covers : ∀ σ', Exec M b allowed σ stmts σ' → s.Covers M b σ'
  progress : (∀ σ stmt, allowed σ stmt) → ∃ σ', Exec M b allowed σ stmts σ'

/-- Where a statement is allowed in a covered store, and is run without a fault and with an
observation among given ones, it adds exactly. -/
def Statement.ExactWhere (M : Arithmetic) (b : Body) (allowed : Store → Statement → Prop)
    (checked : List CheckedOp) (stmt : Statement) : Prop :=
  ∀ s σ loc e, s.Covers M b σ → allowed σ stmt → stmt.run b loc s = .ok e → e.fault = none →
    e.observed.toList ⊆ checked → stmt.AddsExactly M b σ

/-- Mathematical integers are always added exactly. -/
theorem Statement.exactWhere_exact {b : Body} {allowed : Store → Statement → Prop}
    {checked : List CheckedOp} (stmt : Statement) : stmt.ExactWhere .exact b allowed checked := by
  intro s σ loc e _ _ _ _ _ ty m n _
  exact ⟨rfl, rfl⟩

namespace Simulates

variable {M : Arithmetic} {b : Body} {allowed : Store → Statement → Prop} {σ : Store}

theorem nil {s : State} (hs : s.Covers M b σ) : Simulates M b allowed σ [] s := by
  refine ⟨?_, fun _ => ⟨σ, .nil⟩⟩
  intro σ' hexec
  cases hexec
  exact hs

theorem append {stmts stmts' : List Statement} {s₁ s₂ : State}
    (h : Simulates M b allowed σ stmts s₁)
    (h' : ∀ σ₁, s₁.Covers M b σ₁ → Simulates M b allowed σ₁ stmts' s₂) :
    Simulates M b allowed σ (stmts ++ stmts') s₂ := by
  constructor
  · intro σ' hexec
    obtain ⟨σ₁, hfirst, hrest⟩ := Exec.append_iff.1 hexec
    exact (h' σ₁ (h.covers σ₁ hfirst)).covers σ' hrest
  · intro hallowed
    obtain ⟨σ₁, hfirst⟩ := h.progress hallowed
    obtain ⟨σ', hrest⟩ := (h' σ₁ (h.covers σ₁ hfirst)).progress hallowed
    exact ⟨σ', Exec.append_iff.2 ⟨σ₁, hfirst, hrest⟩⟩

theorem statement {s : State} {stmt : Statement} {loc : Location} {e : Effect}
    (hstmt : stmt.WellTyped b) (hs : s.Covers M b σ) (h : stmt.run b loc s = .ok e)
    (hf : e.fault = none) (hexact : allowed σ stmt → stmt.AddsExactly M b σ) :
    Simulates M b allowed σ [stmt] e.state := by
  constructor
  · intro σ' hexec
    cases hexec with
    | cons hallowed hstep hrest =>
      cases hrest
      exact (Statement.step_covers hstmt hs h hf (hexact hallowed)).2 σ' hstep
  · intro hallowed
    have hstmt' := hallowed σ stmt
    obtain ⟨σ', hstep⟩ := (Statement.step_covers hstmt hs h hf (hexact hstmt')).1
    exact ⟨σ', .cons hstmt' hstep .nil⟩

end Simulates

namespace Run

variable {M : Arithmetic} {b : Body} {allowed : Store → Statement → Prop} {bb i : Nat} {r r' : Run}
  {σ : Store} {checked : List CheckedOp}

/-- The run of a block without faults simulates its executions. -/
theorem block_simulates {stmts : List Statement} (hstmts : ∀ stmt ∈ stmts, stmt.WellTyped b)
    (hexact : ∀ stmt ∈ stmts, stmt.ExactWhere M b allowed checked)
    (h : block b bb i stmts r = .ok r') (hr' : r'.faults = []) (hchecked : r'.checked ⊆ checked)
    (hs : r.state.Covers M b σ) : Simulates M b allowed σ stmts r'.state := by
  induction stmts generalizing i r σ with
  | nil =>
    obtain rfl : r = r' := Except.ok.inj h
    exact .nil hs
  | cons stmt rest ih =>
    obtain ⟨e, he, hf, hrest⟩ := block_cons_of_faultless h hr'
    have hobserved : e.observed.toList ⊆ checked :=
      List.Subset.trans (block_extends hrest).observed hchecked
    have hfirst : Simulates M b allowed σ [stmt] e.state :=
      .statement (hstmts stmt List.mem_cons_self) hs he hf fun hallowed =>
        hexact stmt List.mem_cons_self _ σ _ e hs hallowed he hf hobserved
    exact hfirst.append fun σ₁ hs₁ =>
      ih (fun s hs => hstmts s (List.mem_cons_of_mem _ hs))
        (fun s hs => hexact s (List.mem_cons_of_mem _ hs)) hrest hs₁

/-- **A run without faults simulates the executions of its statements**, as long as their additions
are exact where they are allowed. -/
theorem blocks_simulates {bs : List (List Statement)}
    (hstmts : ∀ stmts ∈ bs, ∀ stmt ∈ stmts, stmt.WellTyped b)
    (hexact : ∀ stmts ∈ bs, ∀ stmt ∈ stmts, stmt.ExactWhere M b allowed checked)
    (h : blocks b bb bs r = .ok r') (hr' : r'.faults = []) (hchecked : r'.checked ⊆ checked)
    (hs : r.state.Covers M b σ) : Simulates M b allowed σ bs.flatten r'.state := by
  induction bs generalizing bb r σ with
  | nil =>
    obtain rfl : r = r' := Except.ok.inj h
    exact .nil hs
  | cons stmts rest ih =>
    obtain ⟨r₁, hblock, hrest⟩ := blocks_cons_eq_ok.1 h
    have hext := blocks_extends hrest
    have hfirst : Simulates M b allowed σ stmts r₁.state :=
      block_simulates (hstmts stmts List.mem_cons_self) (hexact stmts List.mem_cons_self) hblock
        (hext.faultless hr') (List.Subset.trans hext.2 hchecked) hs
    exact hfirst.append fun σ₁ hs₁ =>
      ih (fun s hs => hstmts s (List.mem_cons_of_mem _ hs))
        (fun s hs => hexact s (List.mem_cons_of_mem _ hs)) hrest hs₁

end Run

/-! ### Bodies -/

namespace Body

variable {M : Arithmetic} {b : Body} {allowed : Store → Statement → Prop} {args : List Value}
  {r : Run} {σ : Store}

/-- A run of a well-typed body without faults simulates the executions of the body from matching
stores. -/
theorem simulates_of_interpret (hb : b.WellTyped) (h : b.interpret args = .ok r)
    (hr : r.faults = []) (hσ : σ.Typed M b) (hargs : σ.Matches args)
    (hexact : ∀ stmts ∈ b.blocks, ∀ stmt ∈ stmts, stmt.ExactWhere M b allowed r.checked) :
    Simulates M b allowed σ b.blocks.flatten r.state := by
  obtain ⟨s, hs, hrun⟩ := interpret_eq_ok.1 h
  have hcovers : (Run.start s).state.Covers M b σ := State.covers_of_seed hs hσ hargs
  exact Run.blocks_simulates hb hexact hrun hr (List.Subset.refl _) hcovers

/-- **Wherever an execution comes to, the run has been there**: in a state that covers the store, it
has run the statement at that location without a fault, and kept what was observed. -/
theorem exists_covered_of_executes (hb : b.WellTyped) (h : b.interpret args = .ok r)
    (hr : r.faults = []) (hσ : σ.Typed M b) (hargs : σ.Matches args)
    (hexact : ∀ stmts ∈ b.blocks, ∀ stmt ∈ stmts, stmt.ExactWhere M b allowed r.checked)
    {loc : Location} {stmt : Statement} (hloc : b.statementAt? loc = some stmt) {σ' : Store}
    (hexec : Exec M b allowed σ (b.upTo loc).flatten σ') :
    ∃ s e, s.Covers M b σ' ∧ stmt.run b loc s = .ok e ∧ e.fault = none ∧
      e.observed.toList ⊆ r.checked := by
  obtain ⟨s, hs, hrun⟩ := interpret_eq_ok.1 h
  have hcovers : (Run.start s).state.Covers M b σ := State.covers_of_seed hs hσ hargs
  obtain ⟨r₁, e, hreach, hext, he, hf, hobserved⟩ := Run.reach_of_faultless hrun hr hloc
  -- the statements before the location are statements of the body
  have htyped : ∀ stmts ∈ b.upTo loc, ∀ stmt ∈ stmts, stmt.WellTyped b := by
    intro stmts hstmts stmt hstmt
    obtain ⟨stmts', hstmts', hstmt'⟩ := mem_of_mem_upTo hstmts hstmt
    exact hb stmts' hstmts' stmt hstmt'
  have hexact' : ∀ stmts ∈ b.upTo loc, ∀ stmt ∈ stmts,
      stmt.ExactWhere M b allowed r.checked := by
    intro stmts hstmts stmt hstmt
    obtain ⟨stmts', hstmts', hstmt'⟩ := mem_of_mem_upTo hstmts hstmt
    exact hexact stmts' hstmts' stmt hstmt'
  have hsim : Simulates M b allowed σ (b.upTo loc).flatten r₁.state :=
    Run.blocks_simulates htyped hexact' hreach (hext.faultless hr) hext.2 hcovers
  exact ⟨r₁.state, e, hsim.covers σ' hexec, he, hf, hobserved⟩

/-- **Runs are sound.**  Let a well-typed body be run on accepted arguments without faults, and let
a store hold data of the declared types and, in the argument locals, data that the arguments stand
for.  Then the statements of the body can be executed on it over the mathematical integers, and
every store that is reached holds data of the declared types and, in each bound local, a datum that
its value stands for. -/
theorem interpret_sound (hb : b.WellTyped) (h : b.interpret args = .ok r) (hr : r.faults = [])
    (hσ : σ.Typed .exact b) (hargs : σ.Matches args) :
    (∃ σ', b.Executes .exact σ b.blocks.flatten σ') ∧
      ∀ σ', b.Executes .exact σ b.blocks.flatten σ' →
        σ'.Typed .exact b ∧ ∀ n v, r.state.get? n = some v → v.admits (σ' n) = true := by
  have hsim : Simulates .exact b (fun _ _ => True) σ b.blocks.flatten r.state :=
    simulates_of_interpret hb h hr hσ hargs fun _ _ stmt _ => stmt.exactWhere_exact
  refine ⟨hsim.progress fun _ _ => trivial, ?_⟩
  intro σ' hexec
  obtain ⟨htyped, hadmits⟩ := hsim.covers σ' hexec
  exact ⟨htyped, hadmits⟩

theorem refillStore_matches {m greatest : Int} (hm : 100 ≤ m ∧ m ≤ greatest) :
    (refillStore m).Matches (refillArgs greatest) := by
  have hcontains : (Interval.between 100 greatest).contains m = true :=
    Interval.contains_iff.2 ⟨(Bound.fin_le_fin _ _).2 hm.1, (Bound.fin_le_fin _ _).2 hm.2⟩
  have hfirst : (Value.uint (.between 100 greatest)).admits (.int m) = true :=
    Value.uint_admits_iff.2 ⟨m, rfl, hcontains⟩
  exact Store.matches_ofData [.int m, .int 60] (.cons hfirst (.cons (by decide) .nil))

/-- The exact sum 260 is covered, although it is no integer of the type. -/
theorem interpret_sound_refill :
    ∃ r, refill.interpret (refillArgs 200) = .ok r ∧ r.faults = [] ∧
      (∃ σ', refill.Executes .exact (refillStore 200) refill.blocks.flatten σ') ∧
      ∀ σ', refill.Executes .exact (refillStore 200) refill.blocks.flatten σ' →
        (Value.tuple [.uint (.between 150 260), .bool .false]).admits (σ' 0) = true := by
  obtain ⟨r, hr⟩ : ∃ r, refill.interpret (refillArgs 200) = .ok r := ⟨_, rfl⟩
  have hfaults : r.faults = [] := by
    cases hr
    rfl
  have hresult : r.state.get? 0 = some (.tuple [.uint (.between 150 260), .bool .false]) := by
    cases hr
    rfl
  have htyped : (refillStore 200).Typed .exact refill :=
    Store.typed_ofData (.cons rfl (.cons rfl (.cons rfl (.cons rfl .nil))))
  have hsound := interpret_sound refill_wellTyped hr hfaults htyped
    (refillStore_matches (by decide))
  exact ⟨r, hr, hfaults, hsound.1, fun σ' hexec => (hsound.2 σ' hexec).2 0 _ hresult⟩

end Body

end MirRange
