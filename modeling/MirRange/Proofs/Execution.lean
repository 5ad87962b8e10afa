import MirRange.Proofs.Seed
import MirRange.Proofs.Typing

/-!
# Execution on stored data

What an abstract run is a statement about: the same body, executed on a store that holds one datum
for every local.  The execution is a relation, as a deinitialised place may hold any datum of its
type afterwards, and it is given for any arithmetic that says which integers a type has and what the
sum of two of them is.

* `Datum`, `Store`: booleans, integers and tuples of them; one datum for every local.
* `Arithmetic`: `Arithmetic.exact` adds mathematical integers, `Arithmetic.fixedWidth` wraps around
  at the ends of the range of a type and raises the flag of a checked addition when it does.
* `Statement.Step`, `Exec`: one statement and a list of statements.
* `Statement.Overflows`: a statement adds two integers whose sum leaves the range of their type.
* `Exec.typed`: an execution of well-typed statements keeps the types of a store.
-/

namespace MirRange

/-! ### Data -/

/-- What a local holds during an execution.  The data of types that are not looked into are
blobs. -/
inductive Datum where
  | bool (b : Bool)
  | int (n : Int)
  | tuple (items : List Datum)
  | blob (code : Int)

/-- The items of a tuple. -/
def Datum.items? : Datum → Option (List Datum)
  | .tuple items => some items
  | _ => none

theorem Datum.items?_eq_some {d : Datum} {items : List Datum} :
    d.items? = some items ↔ d = .tuple items := by
  cases d <;> simp [Datum.items?]

instance : Nested Datum where
  items? := Datum.items?
  ofItems := .tuple
  items?_ofItems _ := rfl
  ofItems_of_items? h := (Datum.items?_eq_some.1 h).symm

/-! ### Arithmetic -/

namespace Ty

/-- Whether an integer is outside the range of a type. -/
def excludes (ty : Ty) (n : Int) : Bool :=
  match ty.range? with
  | some r => n < r.min || r.max < n
  | none => false

theorem excludes_iff {ty : Ty} {n : Int} :
    ty.excludes n = true ↔ ∃ r, ty.range? = some r ∧ (n < r.min ∨ r.max < n) := by
  unfold excludes
  cases ty.range? <;> simp

/-- The integer of a type that differs from a given one by a multiple of the size of its range. -/
def wrap (ty : Ty) (n : Int) : Int :=
  match ty.range? with
  | some r => (n - r.min) % (r.max - r.min + 1) + r.min
  | none => n

theorem range?_ordered {ty : Ty} {r : IntRange} (h : ty.range? = some r) : r.min ≤ r.max := by
  have hpos : ∀ k, 0 < Nat.pow 2 k := fun k => Nat.pow_pos (by decide)
  unfold range? at h
  split at h
  · rename_i bits
    cases h
    have := hpos (bits - 1)
    show -(Nat.pow 2 (bits - 1) : Int) ≤ (Nat.pow 2 (bits - 1) : Int) - 1
    omega
  · rename_i bits
    cases h
    have := hpos bits
    show (0 : Int) ≤ (Nat.pow 2 bits : Int) - 1
    omega
  · cases h

theorem wrap_not_excluded (ty : Ty) (n : Int) : ty.excludes (ty.wrap n) = false := by
  unfold excludes wrap
  cases h : ty.range? with
  | none => rfl
  | some r =>
    have hr := range?_ordered h
    have hlow := Int.emod_nonneg (n - r.min) (b := r.max - r.min + 1) (by omega)
    have hhigh := Int.emod_lt_of_pos (n - r.min) (b := r.max - r.min + 1) (by omega)
    simp only [Bool.or_eq_false_iff, decide_eq_false_iff_not]
    omega

theorem wrap_of_not_excluded {ty : Ty} {n : Int} (h : ty.excludes n = false) : ty.wrap n = n := by
  unfold excludes at h
  unfold wrap
  cases hty : ty.range? with
  | none => rfl
  | some r =>
    simp only [hty, Bool.or_eq_false_iff, decide_eq_false_iff_not] at h
    show (n - r.min) % (r.max - r.min + 1) + r.min = n
    rw [Int.emod_eq_of_lt (by omega) (by omega)]
    omega

end Ty

/-- Which integers a type has, what their sum is, and when a checked addition raises its flag. -/
structure Arithmetic where
  holds : Ty → Int → Bool
  sum : Ty → Int → Int → Int
  carry : Ty → Int → Int → Bool
  holds_sum : ∀ ty m n, holds ty (sum ty m n) = true

namespace Arithmetic

/-- Mathematical integers: no sum leaves a type. -/
def exact : Arithmetic where
  holds _ _ := true
  sum _ m n := m + n
  carry _ _ _ := false
  holds_sum _ _ _ := rfl

/-- Integers of the width of their type: sums wrap around. -/
def fixedWidth : Arithmetic where
  holds ty n := !ty.excludes n
  sum ty m n := ty.wrap (m + n)
  carry ty m n := ty.excludes (m + n)
  holds_sum ty m n := by rw [Ty.wrap_not_excluded]; rfl

end Arithmetic

/-! ### Types of data -/

namespace Datum

mutual

/-- Whether a datum is of a type. -/
def hasTy (M : Arithmetic) : Datum → Ty → Bool
  | .bool _, .bool => true
  | .int n, .int bits => M.holds (.int bits) n
  | .int n, .uint bits => M.holds (.uint bits) n
  | .tuple items, .tuple fields => haveTys M items fields
  | .blob _, .float _ => true
  | .blob _, .ref _ _ => true
  | .blob _, .adt _ => true
  | .blob _, .str => true
  | _, _ => false

/-- Whether data are of types, one by one. -/
def haveTys (M : Arithmetic) : List Datum → List Ty → Bool
  | [], [] => true
  | d :: ds, t :: ts => hasTy M d t && haveTys M ds ts
  | _, _ => false

end

variable {M : Arithmetic}

theorem haveTys_iff {items : List Datum} {fields : List Ty} :
    haveTys M items fields = true ↔
      List.Forall₂ (fun d t => d.hasTy M t = true) items fields := by
  induction items generalizing fields with
  | nil => cases fields <;> simp [haveTys]
  | cons d items ih => cases fields <;> simp [haveTys, ih]

theorem hasTy_tuple_iff {items : List Datum} {ty : Ty} :
    (Datum.tuple items).hasTy M ty = true ↔
      ∃ fields, ty = .tuple fields ∧
        List.Forall₂ (fun d t => d.hasTy M t = true) items fields := by
  cases ty <;> simp [hasTy, haveTys_iff]

/-- A datum of a tuple type is a tuple of data of its fields. -/
theorem hasTy_tupleTy_iff {d : Datum} {fields : List Ty} :
    d.hasTy M (.tuple fields) = true ↔
      ∃ items, d = .tuple items ∧
        List.Forall₂ (fun d t => d.hasTy M t = true) items fields := by
  cases d <;> simp [hasTy, haveTys_iff]

/-- A tuple hands its type down to its items. -/
theorem hasTy_carried : Nested.Carried fun (d : Datum) (t : Ty) => d.hasTy M t = true := by
  intro d ty items h hitems
  obtain rfl := items?_eq_some.1 hitems
  obtain ⟨fields, rfl, hall⟩ := hasTy_tuple_iff.1 h
  exact ⟨fields, rfl, hall⟩

end Datum

/-! ### Stores -/

/-- One datum for every local. -/
def Store := Local → Datum

namespace Store

/-- The store with one local changed. -/
def set (σ : Store) (n : Local) (d : Datum) : Store :=
  fun k => if k = n then d else σ k

@[simp] theorem set_self (σ : Store) (n : Local) (d : Datum) : σ.set n d n = d :=
  if_pos rfl

theorem set_of_ne (σ : Store) {n k : Local} (d : Datum) (h : k ≠ n) : σ.set n d k = σ k :=
  if_neg h

/-- The datum of a place. -/
def read? (σ : Store) (p : Place) : Option Datum :=
  Nested.follow? p.path (σ p.base)

/-- The store with the datum of a place replaced. -/
def write? (σ : Store) (p : Place) (d : Datum) : Option Store :=
  (Nested.update? d p.path (σ p.base)).map (σ.set p.base)

/-- Every declared local holds a datum of its type. -/
def Typed (M : Arithmetic) (b : Body) (σ : Store) : Prop :=
  ∀ n ty, b.localTy n = .ok ty → (σ n).hasTy M ty = true

variable {M : Arithmetic} {b : Body} {σ : Store}

theorem Typed.set (hσ : σ.Typed M b) {n : Local} {d : Datum} {ty : Ty}
    (hty : b.localTy n = .ok ty) (hd : d.hasTy M ty = true) : (σ.set n d).Typed M b := by
  intro k t hk
  by_cases hkn : k = n
  · subst hkn
    obtain rfl : ty = t := Except.ok.inj (hty.symm.trans hk)
    rw [set_self]
    exact hd
  · rw [set_of_ne σ d hkn]
    exact hσ k t hk

/-- The datum of a place is of the type of the place. -/
theorem Typed.read (hσ : σ.Typed M b) {p : Place} {ty : Ty} (hty : b.placeTy p = .ok ty)
    {d : Datum} (h : σ.read? p = some d) : d.hasTy M ty = true := by
  obtain ⟨t, ht, hpath⟩ := Body.placeTy_eq_ok.1 hty
  obtain ⟨ty', hty', hd⟩ := Nested.follow?_carried Datum.hasTy_carried (hσ p.base t ht) h
  obtain rfl : ty' = ty := Except.ok.inj ((Body.pathTy_of_follow? hty').symm.trans hpath)
  exact hd

/-- A datum of the type of a place can be written there. -/
theorem Typed.write (hσ : σ.Typed M b) {p : Place} {ty : Ty} (hty : b.placeTy p = .ok ty)
    {d : Datum} (hd : d.hasTy M ty = true) {σ' : Store} (h : σ.write? p d = some σ') :
    σ'.Typed M b := by
  obtain ⟨t, ht, hpath⟩ := Body.placeTy_eq_ok.1 hty
  obtain ⟨changed, hchanged, rfl⟩ := Option.map_eq_some_iff.1 h
  obtain ⟨t', ht', hconf⟩ := Nested.update?_carried Datum.hasTy_carried
    (fun hall => Datum.hasTy_tuple_iff.2 ⟨_, rfl, hall⟩) hd (hσ p.base t ht) hchanged
  obtain rfl := Body.eq_of_update?_pathTy hpath ht'
  exact hσ.set ht hconf

/-- The store that holds given data in its first locals. -/
def ofData (ds : List Datum) : Store :=
  fun n => (at? ds n).getD (.blob 0)

theorem ofData_of_at? {ds : List Datum} {n : Local} {d : Datum} (h : at? ds n = some d) :
    ofData ds n = d := by
  rw [ofData, h]
  rfl

theorem typed_ofData {ds : List Datum}
    (h : List.Forall₂ (fun d decl => d.hasTy M (LocalDecl.ty decl) = true) ds b.locals) :
    (ofData ds).Typed M b := by
  intro n ty hty
  obtain ⟨decl, hdecl, rfl⟩ := Body.localTy_eq_ok.1 hty
  obtain ⟨d, hd, htyped⟩ := at?_of_forall₂ h.flip hdecl
  rw [ofData_of_at? hd]
  exact htyped

end Store

/-! ### Operands, operators and rvalues -/

/-- The datum of a constant: only boolean ones of a single initialised byte have one. -/
def Const.datum? (c : Const) : Option Datum :=
  match c.ty, c.kind, c.bytes with
  | .bool, .allocated, [some n] => some (.bool (n != 0))
  | _, _, _ => none

/-- The datum of an operand. -/
def Operand.datum? (σ : Store) : Operand → Option Datum
  | .copy p => σ.read? p
  | .move p => σ.read? p
  | .const c => c.datum?

/-- The result of an operator on two data of a type. -/
def BinOp.datum? (M : Arithmetic) (ty : Ty) : BinOp → Datum → Datum → Option Datum
  | .add, .int m, .int n => some (.int (M.sum ty m n))
  | .eq, .bool x, .bool y => some (.bool (x == y))
  | .eq, .int m, .int n => some (.bool (m == n))
  | .lt, .bool x, .bool y => some (.bool (!x && y))
  | .lt, .int m, .int n => some (.bool (m < n))
  | _, _, _ => none

/-- The flag of a checked operator on two data of a type. -/
def BinOp.flag (M : Arithmetic) (ty : Ty) : BinOp → Datum → Datum → Bool
  | .add, .int m, .int n => M.carry ty m n
  | _, _, _ => false

/-- An rvalue gives a datum in a store.  A checked operation gives the pair of its plain result and
its flag. -/
inductive Rvalue.Gives (M : Arithmetic) (b : Body) (σ : Store) : Rvalue → Datum → Prop
  | use {x d} : x.datum? σ = some d → Gives M b σ (.use x) d
  | binary {op left right ty l r d} : b.operandTy left = .ok ty → left.datum? σ = some l →
      right.datum? σ = some r → op.datum? M ty l r = some d → Gives M b σ (.binary op left right) d
  | checked {op left right ty l r d} : b.operandTy left = .ok ty → left.datum? σ = some l →
      right.datum? σ = some r → op.datum? M ty l r = some d →
      Gives M b σ (.checked op left right) (.tuple [d, .bool (op.flag M ty l r)])

section

variable {M : Arithmetic} {b : Body} {σ : Store}

theorem Const.datum?_hasTy {c : Const} {d : Datum} (h : c.datum? = some d) :
    d.hasTy M c.ty = true := by
  unfold Const.datum? at h
  split at h
  · rename_i hty _ _
    cases h
    rw [hty]
    rfl
  · cases h

/-- The datum of an operand is of the type of the operand. -/
theorem Operand.datum?_hasTy (hσ : σ.Typed M b) {x : Operand} {ty : Ty}
    (hty : b.operandTy x = .ok ty) {d : Datum} (h : x.datum? σ = some d) : d.hasTy M ty = true := by
  cases x with
  | copy p => exact hσ.read hty h
  | move p => exact hσ.read hty h
  | const c =>
    obtain rfl : c.ty = ty := Except.ok.inj hty
    exact Const.datum?_hasTy h

/-- The result of an operator is of the type that the operands' type gives. -/
theorem BinOp.datum?_hasTy {op : BinOp} {t ty : Ty} {l r d : Datum}
    (hty : op.resultTy? t = some ty) (h : op.datum? M t l r = some d) : d.hasTy M ty = true := by
  unfold BinOp.datum? at h
  split at h <;> cases h
  case h_1 m n => cases t <;> cases hty <;> exact M.holds_sum _ m n
  all_goals cases t <;> cases hty <;> rfl

/-- An rvalue of a type gives a datum of that type. -/
theorem Rvalue.Gives.hasTy (hσ : σ.Typed M b) {rv : Rvalue} {ty : Ty} (hrv : rv.HasTy b ty)
    {d : Datum} (h : rv.Gives M b σ d) : d.hasTy M ty = true := by
  cases h with
  | use hx => exact Operand.datum?_hasTy hσ hrv hx
  | binary hleft hl hr hop =>
    obtain ⟨t, ht, -, hresult⟩ := hrv
    obtain rfl := Except.ok.inj (hleft.symm.trans ht)
    exact BinOp.datum?_hasTy hresult hop
  | checked hleft hl hr hop =>
    obtain ⟨t, result, ht, -, hresult, rfl⟩ := hrv
    obtain rfl := Except.ok.inj (hleft.symm.trans ht)
    exact Datum.hasTy_tuple_iff.2
      ⟨_, rfl, .cons (BinOp.datum?_hasTy hresult hop) (.cons rfl .nil)⟩

end

/-! ### Statements and runs -/

/-- A statement leads from one store to another.  A deinitialised place holds any datum of its type
afterwards. -/
inductive Statement.Step (M : Arithmetic) (b : Body) (σ : Store) : Statement → Store → Prop
  | assign {p rv d σ'} : rv.Gives M b σ d → σ.write? p d = some σ' → Step M b σ (.assign p rv) σ'
  | deinit {p ty d σ'} : b.placeTy p = .ok ty → d.hasTy M ty = true → σ.write? p d = some σ' →
      Step M b σ (.deinit p) σ'
  | storageLive {n} : Step M b σ (.storageLive n) σ
  | storageDead {n} : Step M b σ (.storageDead n) σ
  | nop : Step M b σ .nop σ

/-- Statements that are executed one after the other, each in a store in which it is allowed. -/
inductive Exec (M : Arithmetic) (b : Body) (allowed : Store → Statement → Prop) :
    Store → List Statement → Store → Prop
  | nil {σ} : Exec M b allowed σ [] σ
  | cons {σ stmt σ₁ rest σ'} : allowed σ stmt → stmt.Step M b σ σ₁ →
      Exec M b allowed σ₁ rest σ' → Exec M b allowed σ (stmt :: rest) σ'

/-- A statement adds two integers of a type. -/
inductive Statement.Adds (b : Body) (σ : Store) : Statement → Ty → Int → Int → Prop
  | binary {p left right ty m n} : b.operandTy left = .ok ty → left.datum? σ = some (.int m) →
      right.datum? σ = some (.int n) → Adds b σ (.assign p (.binary .add left right)) ty m n
  | checked {p left right ty m n} : b.operandTy left = .ok ty → left.datum? σ = some (.int m) →
      right.datum? σ = some (.int n) → Adds b σ (.assign p (.checked .add left right)) ty m n

/-- A statement adds two integers whose exact sum is outside the range of their type. -/
def Statement.Overflows (b : Body) (σ : Store) (stmt : Statement) : Prop :=
  ∃ ty m n, stmt.Adds b σ ty m n ∧ ty.excludes (m + n) = true

/-- All executions of statements. -/
def Body.Executes (M : Arithmetic) (b : Body) : Store → List Statement → Store → Prop :=
  Exec M b fun _ _ => True

/-- The executions of statements at fixed width in which no addition overflows. -/
def Body.ExecutesInRange (b : Body) : Store → List Statement → Store → Prop :=
  Exec .fixedWidth b fun σ stmt => ¬stmt.Overflows b σ

section

variable {M : Arithmetic} {b : Body} {allowed : Store → Statement → Prop} {σ σ' : Store}

/-- **What one step preserves**: a well-typed statement keeps the types of a store. -/
theorem Statement.Step.typed {stmt : Statement} (hstmt : stmt.WellTyped b) (hσ : σ.Typed M b)
    (h : stmt.Step M b σ σ') : σ'.Typed M b := by
  cases h with
  | assign hrv hwrite =>
    obtain ⟨-, ty, hty, hrvty⟩ := hstmt
    exact hσ.write hty (hrv.hasTy hσ hrvty) hwrite
  | deinit hty hd hwrite => exact hσ.write hty hd hwrite
  | storageLive => exact hσ
  | storageDead => exact hσ
  | nop => exact hσ

/-- **What an execution preserves**: well-typed statements keep the types of a store. -/
theorem Exec.typed {stmts : List Statement} (hstmts : ∀ stmt ∈ stmts, stmt.WellTyped b)
    (hσ : σ.Typed M b) (h : Exec M b allowed σ stmts σ') : σ'.Typed M b := by
  induction h with
  | nil => exact hσ
  | cons _ hstep _ ih =>
    exact ih (fun stmt hstmt => hstmts stmt (List.mem_cons_of_mem _ hstmt))
      (hstep.typed (hstmts _ List.mem_cons_self) hσ)

theorem Exec.append_iff {stmts stmts' : List Statement} :
    Exec M b allowed σ (stmts ++ stmts') σ' ↔
      ∃ σ₁, Exec M b allowed σ stmts σ₁ ∧ Exec M b allowed σ₁ stmts' σ' := by
  induction stmts generalizing σ with
  | nil =>
    refine ⟨fun h => ⟨σ, .nil, h⟩, ?_⟩
    rintro ⟨σ₁, hnil, h⟩
    cases hnil
    exact h
  | cons stmt rest ih =>
    constructor
    · intro h
      cases h with
      | cons hok hstep hrest =>
        obtain ⟨σ₁, h₁, h₂⟩ := ih.1 hrest
        exact ⟨σ₁, .cons hok hstep h₁, h₂⟩
    · rintro ⟨σ₁, h₁, h₂⟩
      cases h₁ with
      | cons hok hstep hrest => exact .cons hok hstep (ih.2 ⟨σ₁, hrest, h₂⟩)

end

/-- A store for `refill` with a given first argument and 60 as the second one. -/
def Body.refillStore (m : Int) : Store :=
  .ofData [.tuple [.int 0, .bool false], .int m, .int 60,
    .tuple [.int 7, .tuple [.bool true, .int 9]]]

end MirRange
