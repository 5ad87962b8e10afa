import MirRange.Proofs.Seed
import MirRange.Proofs.Typing

/-!
# Two runs side by side

Interpretation never looks at a truth value or an interval except through the operators, and what it
cannot do depends on the shapes of values only.  So a relation between truth values and between
intervals that the operators respect is respected by whole runs: they fail alike, and where they
succeed they end in related states with equal faults and related observations.

* `LeafRelation`: relations between truth values and intervals that the operators respect.
* `Value.Related`: the relation that follows between values of one shape.
* `Agree`: two computations fail alike, or give related results.
* `Statement.run_related`: what one statement respects.
* `Run.blocks_related`, `Body.interpret_related`: what a run respects.
-/

namespace MirRange

/-! ### Computations that agree -/

/-- Two computations fail with the same error, or give related results. -/
inductive Agree {ε α β : Type} (P : α → β → Prop) : Except ε α → Except ε β → Prop
  | ok {a b} : P a b → Agree P (.ok a) (.ok b)
  | error {e} : Agree P (.error e) (.error e)

namespace Agree

variable {ε ε' α β α' β' : Type} {P : α → β → Prop} {x : Except ε α} {y : Except ε β}

theorem bind {Q : α' → β' → Prop} {f : α → Except ε α'} {g : β → Except ε β'} (h : Agree P x y)
    (hfg : ∀ a b, P a b → Agree Q (f a) (g b)) : Agree Q (x >>= f) (y >>= g) := by
  cases h with
  | ok hab => exact hfg _ _ hab
  | error => exact .error

theorem mapError (h : Agree P x y) (f : ε → ε') : Agree P (x.mapError f) (y.mapError f) := by
  cases h with
  | ok hab => exact .ok hab
  | error => exact .error

/-- A computation agrees with itself if its results are related to themselves. -/
theorem self {P : α → α → Prop} {x : Except ε α} (h : ∀ a, x = .ok a → P a a) : Agree P x x := by
  cases x with
  | ok a => exact .ok (h a rfl)
  | error e => exact .error

theorem ofOption {x : Option α} {y : Option β} (h : Option.Rel P x y) (e : ε) :
    Agree P (x.elim (.error e) .ok) (y.elim (.error e) .ok) := by
  cases h with
  | some hab => exact .ok hab
  | none => exact .error

theorem ok_right (h : Agree P x y) {b : β} (hy : y = .ok b) : ∃ a, x = .ok a ∧ P a b := by
  cases h with
  | @ok a b' hab =>
    obtain rfl : b' = b := Except.ok.inj hy
    exact ⟨a, rfl, hab⟩
  | error => cases hy

theorem error_right (h : Agree P x y) {e : ε} (hy : y = .error e) : x = .error e := by
  cases h with
  | ok _ => cases hy
  | error => exact congrArg Except.error (Except.error.inj hy)

theorem imp {Q : α → β → Prop} (h : Agree P x y) (hPQ : ∀ a b, P a b → Q a b) : Agree Q x y := by
  cases h with
  | ok hab => exact .ok (hPQ _ _ hab)
  | error => exact .error

end Agree

/-- Items of related lists at one index are related, or both are missing. -/
theorem at?_rel {α β : Type} {R : α → β → Prop} {as : List α} {bs : List β}
    (h : List.Forall₂ R as bs) (i : Int) : Option.Rel R (at? as i) (at? bs i) := by
  cases ha : at? as i with
  | some a =>
    obtain ⟨b, hb, hab⟩ := at?_of_forall₂ h ha
    rw [hb]
    exact .some hab
  | none =>
    cases hb : at? bs i with
    | none => exact .none
    | some b =>
      obtain ⟨a, ha', -⟩ := at?_of_forall₂ h.flip hb
      rw [ha] at ha'
      cases ha'

/-! ### Related values -/

/-- Relations between truth values and between intervals that the operators respect. -/
structure LeafRelation where
  truth : Truth → Truth → Prop
  interval : Interval → Interval → Prop
  truth_refl : ∀ t, truth t t
  interval_top : interval .top .top
  add : ∀ {i i' j j'}, interval i i' → interval j j' → interval (i.add j) (i'.add j')
  equals : ∀ {i i' j j'}, interval i i' → interval j j' → truth (i.equals j) (i'.equals j')
  lessThan : ∀ {i i' j j'}, interval i i' → interval j j' → truth (i.lessThan j) (i'.lessThan j')
  truth_equals : ∀ {s s' t t'}, truth s s' → truth t t' → truth (s.equals t) (s'.equals t')

/-- Two values of one shape whose truth values and intervals are related one by one. -/
inductive Value.Related (R : LeafRelation) : Value → Value → Prop
  | bool {s t} : R.truth s t → Related R (.bool s) (.bool t)
  | int {i j} : R.interval i j → Related R (.int i) (.int j)
  | uint {i j} : R.interval i j → Related R (.uint i) (.uint j)
  | tuple {vs ws} : List.Forall₂ (Related R) vs ws → Related R (.tuple vs) (.tuple ws)
  | uninit : Related R .uninit .uninit

namespace Value

variable {R : LeafRelation} {v w : Value}

theorem Related.variant_eq (h : Related R v w) : v.variant = w.variant := by
  cases h <;> rfl

/-- The greatest value of a type is related to itself. -/
theorem related_of_ofTy {ty : Ty} {top : Value} (h : ofTy ty = .ok top) : Related R top top := by
  refine ofTyInduction (P := fun _ top => Related R top top) (.bool (R.truth_refl _))
    (fun _ => .int R.interval_top) (fun _ => .uint R.interval_top) ?_ h
  intro fields tops hall
  have hself : ∀ top ∈ tops, Related R top top := by
    intro top htop
    obtain ⟨n, hn⟩ := List.getElem?_of_mem htop
    obtain ⟨_, _, hrelated⟩ := getElem?_of_forall₂ hall.flip hn
    exact hrelated
  exact .tuple (List.forall₂_same.2 hself)

/-! ### Items and paths -/

theorem Related.field (h : Related R v w) (i : Int) :
    Agree (Related R) (v.field i) (w.field i) := by
  cases h with
  | tuple hall =>
    rw [field_tuple, field_tuple, hall.length_eq]
    exact .ofOption (at?_rel hall i) _
  | bool _ => exact .error
  | int _ => exact .error
  | uint _ => exact .error
  | uninit => exact .error

theorem Related.set (h : Related R v w) {a b : Value} (hab : Related R a b) (i : Int) :
    Agree (Related R) (v.set i a) (w.set i b) := by
  cases h with
  | tuple hall =>
    rw [Value.set, Value.set, hall.length_eq]
    split
    · exact .ok (.tuple (forall₂_set hall hab _))
    · exact .error
  | bool _ => exact .error
  | int _ => exact .error
  | uint _ => exact .error
  | uninit => exact .error

theorem Related.follow (h : Related R v w) (place : Place) (path : List Projection) :
    Agree (Related R) (Value.follow place path v) (Value.follow place path w) := by
  induction path generalizing v w with
  | nil => exact .ok h
  | cons step path ih =>
    cases step with
    | field i => exact (h.field i).bind fun _ _ hinner => ih hinner
    | deref => exact .error
    | index n => exact .error

theorem Related.update (h : Related R v w) {a b : Value} (hab : Related R a b) (place : Place)
    (path : List Projection) :
    Agree (Related R) (Value.update place a path v) (Value.update place b path w) := by
  induction path generalizing v w with
  | nil => exact .ok hab
  | cons step path ih =>
    cases step with
    | field i =>
      exact (h.field i).bind fun _ _ hinner => (ih hinner).bind fun _ _ hchanged => h.set hchanged i
    | deref => exact .error
    | index n => exact .error

end Value

/-! ### Related states -/

/-- Two states that bind the same locals, to related values. -/
def State.Related (P : Value → Value → Prop) (s s' : State) : Prop :=
  ∀ n, Option.Rel P (s.get? n) (s'.get? n)

namespace State

variable {P : Value → Value → Prop} {R : LeafRelation} {b : Body} {s s' : State}

theorem Related.set (h : s.Related P s') {v w : Value} (hvw : P v w) (n : Local) :
    (s.set n v).Related P (s'.set n w) := by
  intro k
  by_cases hnk : n = k
  · subst hnk
    rw [get?_set_self, get?_set_self]
    exact .some hvw
  · rw [get?_set_of_ne s v hnk, get?_set_of_ne s' w hnk]
    exact h k

theorem Related.bindAll (h : s.Related P s') {vs ws : List Value} (hvw : List.Forall₂ P vs ws)
    (ns : List Local) : (s.bindAll ns vs).Related P (s'.bindAll ns ws) := by
  induction ns generalizing s s' vs ws with
  | nil => exact h
  | cons n ns ih =>
    cases hvw with
    | nil => exact h
    | cons hfirst hrest => exact ih (h.set hfirst n) hrest

theorem Related.read (h : s.Related (Value.Related R) s') (p : Place) :
    Agree (Value.Related R) (s.read p) (s'.read p) := by
  have hbase := h p.base
  unfold State.read
  generalize s.get? p.base = x, s'.get? p.base = y at hbase ⊢
  cases hbase with
  | some hvw => exact hvw.follow p p.path
  | none => exact .error

theorem Related.writable (h : s.Related (Value.Related R) s') (b : Body) (n : Local) :
    Agree (Value.Related R) (s.writable b n) (s'.writable b n) := by
  -- both start from the same greatest value if the local holds none
  have htop : Agree (Value.Related R) (b.localTy n >>= Value.ofTy)
      (b.localTy n >>= Value.ofTy) := by
    refine .self ?_
    intro top h
    obtain ⟨ty, -, hof⟩ := bind_eq_ok.1 h
    exact Value.related_of_ofTy hof
  have hn := h n
  unfold State.writable
  generalize s.get? n = x, s'.get? n = y at hn ⊢
  cases hn with
  | none => exact htop
  | some hvw =>
    cases hvw with
    | uninit => exact htop
    | bool ht => exact .ok (.bool ht)
    | int hi => exact .ok (.int hi)
    | uint hi => exact .ok (.uint hi)
    | tuple hall => exact .ok (.tuple hall)

theorem Related.write (h : s.Related (Value.Related R) s') {v w : Value}
    (hvw : Value.Related R v w) (b : Body) (p : Place) :
    Agree (State.Related (Value.Related R)) (s.write b p v) (s'.write b p w) := by
  obtain ⟨base, path⟩ := p
  cases path with
  | nil => exact .ok (h.set hvw base)
  | cons step path =>
    exact (h.writable b base).bind fun _ _ hcurrent =>
      (hcurrent.update hvw _ _).bind fun _ _ hchanged => .ok (h.set hchanged base)

end State

/-! ### Related evaluation -/

/-- Two observations of one operation, with related operands. -/
structure CheckedOp.Related (P : Value → Value → Prop) (c c' : CheckedOp) : Prop where
  location : c.location = c'.location
  op : c.op = c'.op
  ty : c.ty = c'.ty
  left : P c.left c'.left
  right : P c.right c'.right

/-- Two effects with related states, the same fault and related observations. -/
structure Effect.Related (P : Value → Value → Prop) (e e' : Effect) : Prop where
  state : e.state.Related P e'.state
  observed : Option.Rel (CheckedOp.Related P) e.observed e'.observed
  fault : e.fault = e'.fault

section

variable {R : LeafRelation} {b : Body} {s s' : State}

theorem BinOp.apply_related (op : BinOp) {l l' r r' : Value} (hl : Value.Related R l l')
    (hr : Value.Related R r r') : Agree (Value.Related R) (op.apply l r) (op.apply l' r') := by
  have hunsupported : Agree (Value.Related R)
      (.error (.unsupportedOperator op l.variant r.variant) : Except Fault Value)
      (.error (.unsupportedOperator op l'.variant r'.variant)) := by
    rw [hl.variant_eq, hr.variant_eq]
    exact .error
  cases op with
  | add =>
    cases hl with
    | int hi =>
      cases hr with
      | int hj => exact .ok (.int (R.add hi hj))
      | _ => exact hunsupported
    | uint hi =>
      cases hr with
      | uint hj => exact .ok (.uint (R.add hi hj))
      | _ => exact hunsupported
    | _ => exact hunsupported
  | eq =>
    cases hl with
    | bool hs =>
      cases hr with
      | bool ht => exact .ok (.bool (R.truth_equals hs ht))
      | _ => exact hunsupported
    | int hi =>
      cases hr with
      | int hj => exact .ok (.bool (R.equals hi hj))
      | _ => exact hunsupported
    | uint hi =>
      cases hr with
      | uint hj => exact .ok (.bool (R.equals hi hj))
      | _ => exact hunsupported
    | _ => exact hunsupported
  | lt =>
    cases hl with
    | int hi =>
      cases hr with
      | int hj => exact .ok (.bool (R.lessThan hi hj))
      | _ => exact hunsupported
    | uint hi =>
      cases hr with
      | uint hj => exact .ok (.bool (R.lessThan hi hj))
      | _ => exact hunsupported
    | _ => exact hunsupported
  | _ => exact hunsupported

theorem Operand.eval_related (h : s.Related (Value.Related R) s') (x : Operand) :
    Agree (Value.Related R) (x.eval s) (x.eval s') := by
  cases x with
  | copy p => exact (h.read p).mapError _
  | move p => exact (h.read p).mapError _
  | const c =>
    refine .self ?_
    intro v hv
    obtain ⟨-, t, -, rfl⟩ := Const.eval_eq_ok hv
    exact .bool (R.truth_refl t)

theorem BinOp.eval_related (h : s.Related (Value.Related R) s') (op : BinOp)
    (left right : Operand) :
    Agree (fun x y => Value.Related R x.1 y.1 ∧ Value.Related R x.2.1 y.2.1 ∧
      Value.Related R x.2.2 y.2.2) (op.eval s left right) (op.eval s' left right) :=
  (Operand.eval_related h left).bind fun _ _ hl =>
    (Operand.eval_related h right).bind fun _ _ hr =>
      ((op.apply_related hl hr).mapError _).bind fun _ _ hv => .ok ⟨hl, hr, hv⟩

theorem Rvalue.eval_related (h : s.Related (Value.Related R) s') (b : Body) (loc : Location)
    (rv : Rvalue) :
    Agree (fun x y => Value.Related R x.1 y.1 ∧
      Option.Rel (CheckedOp.Related (Value.Related R)) x.2 y.2)
      (rv.eval b loc s) (rv.eval b loc s') := by
  cases rv with
  | use x => exact (Operand.eval_related h x).bind fun _ _ hv => .ok ⟨hv, .none⟩
  | binary op left right =>
    refine (BinOp.eval_related h op left right).bind ?_
    rintro ⟨l, r, v⟩ ⟨l', r', v'⟩ ⟨-, -, hv⟩
    exact .ok ⟨hv, .none⟩
  | checked op left right =>
    refine (BinOp.eval_related h op left right).bind ?_
    rintro ⟨l, r, v⟩ ⟨l', r', v'⟩ ⟨hl, hr, hv⟩
    refine Agree.bind (P := Eq) (.self fun _ _ => rfl) ?_
    rintro ty _ rfl
    exact .ok ⟨.tuple (.cons hv (.cons (.bool (R.truth_refl _)) .nil)),
      .some ⟨rfl, rfl, rfl, hl, hr⟩⟩
  | unary op x => exact .error
  | ref place isMut => exact .error
  | aggregate items => exact .error
  | cast x ty => exact .error

theorem State.store_related (h : s.Related (Value.Related R) s') {v w : Value}
    (hvw : Value.Related R v w) {observed observed' : Option CheckedOp}
    (hobserved : Option.Rel (CheckedOp.Related (Value.Related R)) observed observed') (b : Body)
    (p : Place) :
    Effect.Related (Value.Related R) (s.store b p v observed) (s'.store b p w observed') := by
  have hwrite := h.write hvw b p
  unfold State.store
  generalize s.write b p v = x, s'.write b p w = y at hwrite ⊢
  cases hwrite with
  | ok hstate => exact ⟨hstate, hobserved, rfl⟩
  | error => exact ⟨h, hobserved, rfl⟩

/-- **What one statement respects**: on related states it ends with the same violation, or has
related effects. -/
theorem Statement.run_related (h : s.Related (Value.Related R) s') (b : Body) (loc : Location)
    (stmt : Statement) :
    Agree (Effect.Related (Value.Related R)) (stmt.run b loc s) (stmt.run b loc s') := by
  cases stmt with
  | assign p rv =>
    have hrv := rv.eval_related h b loc
    rw [Statement.run, Statement.run]
    generalize rv.eval b loc s = x, rv.eval b loc s' = y at hrv ⊢
    cases hrv with
    | @ok x y hxy =>
      obtain ⟨v, observed⟩ := x
      obtain ⟨w, observed'⟩ := y
      exact .ok (State.store_related h hxy.1 hxy.2 b p)
    | @error e =>
      cases e with
      | fault f => exact .ok ⟨h, .none, rfl⟩
      | violation v => exact .error
  | deinit p => exact .ok (State.store_related h .uninit .none b p)
  | storageLive n => exact .ok ⟨h, .none, rfl⟩
  | storageDead n => exact .ok ⟨h, .none, rfl⟩
  | nop => exact .ok ⟨h, .none, rfl⟩

end

/-! ### Related runs -/

/-- Two runs with related states, equal faults and observations related one by one. -/
structure Run.Related (P : Value → Value → Prop) (r r' : Run) : Prop where
  state : r.state.Related P r'.state
  faults : r.faults = r'.faults
  checked : List.Forall₂ (CheckedOp.Related P) r.checked r'.checked

namespace Run

variable {R : LeafRelation} {b : Body} {r r' : Run}

/-- A weaker relation between values gives a weaker one between runs. -/
theorem Related.imp {P Q : Value → Value → Prop} (h : r.Related P r')
    (hPQ : ∀ v w, P v w → Q v w) : r.Related Q r' := by
  refine ⟨?_, h.faults, ?_⟩
  · intro n
    have hn := h.state n
    generalize r.state.get? n = x, r'.state.get? n = y at hn ⊢
    cases hn with
    | some hvw => exact .some (hPQ _ _ hvw)
    | none => exact .none
  · refine h.checked.imp ?_
    intro c c' hc
    exact ⟨hc.location, hc.op, hc.ty, hPQ _ _ hc.left, hPQ _ _ hc.right⟩

theorem Related.after {P : Value → Value → Prop} (h : r.Related P r') {e e' : Effect}
    (he : e.Related P e') : (r.after e).Related P (r'.after e') := by
  refine ⟨he.state, ?_, ?_⟩
  · show r.faults ++ e.fault.toList = r'.faults ++ e'.fault.toList
    rw [h.faults, he.fault]
  · refine List.rel_append h.checked ?_
    have hobserved := he.observed
    generalize e.observed = x, e'.observed = y at hobserved ⊢
    cases hobserved with
    | some hc => exact .cons hc .nil
    | none => exact .nil

/-- What a block respects, up to its end or its first fault. -/
theorem block_related (h : r.Related (Value.Related R) r') (b : Body) (bb i : Nat)
    (stmts : List Statement) :
    Agree (Run.Related (Value.Related R)) (block b bb i stmts r) (block b bb i stmts r') := by
  induction stmts generalizing i r r' with
  | nil => exact .ok h
  | cons stmt rest ih =>
    refine (stmt.run_related h.state b ⟨bb, i⟩).bind ?_
    intro e e' he
    rw [he.fault]
    split
    · exact .ok (h.after he)
    · exact ih (h.after he) (i + 1)

/-- **What a run respects**: on related states it ends with the same violation, or runs through the
same statements with related effects. -/
theorem blocks_related (h : r.Related (Value.Related R) r') (b : Body) (bb : Nat)
    (bs : List (List Statement)) :
    Agree (Run.Related (Value.Related R)) (blocks b bb bs r) (blocks b bb bs r') := by
  induction bs generalizing bb r r' with
  | nil => exact .ok h
  | cons stmts rest ih =>
    exact (block_related h b bb 0 stmts).bind fun _ _ h₁ => ih h₁ (bb + 1)

end Run

/-- **What interpretation respects**: on related arguments that are accepted it ends with the same
violation, or in related runs. -/
theorem Body.interpret_related {R : LeafRelation} {b : Body} {args args' : List Value}
    (h : b.Accepts args) (h' : b.Accepts args')
    (hargs : List.Forall₂ (Value.Related R) args args') :
    Agree (Run.Related (Value.Related R)) (b.interpret args) (b.interpret args') := by
  obtain ⟨s, h⟩ := h
  obtain ⟨s', h'⟩ := h'
  have hempty : State.empty.Related (Value.Related R) State.empty := fun _ => .none
  have hseed : s.Related (Value.Related R) s' := by
    obtain ⟨-, -, rfl⟩ := seed_eq_ok.1 h
    obtain ⟨-, -, rfl⟩ := seed_eq_ok.1 h'
    exact hempty.bindAll hargs b.argLocals
  have hstart : (Run.start s).Related (Value.Related R) (Run.start s') := ⟨hseed, rfl, .nil⟩
  unfold Body.interpret
  rw [h, h']
  exact (Run.blocks_related hstart b 0 b.blocks).mapError _

end MirRange
