import MirRange.Proofs.Bounds
import MirRange.Proofs.Path
import MirRange.Value.Lattice
import MirRange.Value.Typed

/-!
# Shapes of values

The order on values, the greatest value of a type and the test whether a value fits a type are
mutual recursions over values and lists of values.  Here each of them is said on tuples as one
relation between items, and values and types get an induction that has one case for tuples.

* `Value.nestedInduction`, `Ty.nestedInduction`: induction over nested tuples.
* `Value.ofTyInduction`: induction over types together with their greatest values.
* `Value.fits_tuple_iff`, `Value.ofTy_tuple_eq_ok`, `Value.leq_tuple_iff`: the operations on tuples.
* `Value.exists_ofTy_of_fits`: a value that fits a type lies below the greatest value of the type,
  which exists.
-/

namespace MirRange

namespace Value

/-- Induction over values: a tuple has the property if all its items have. -/
@[elab_as_elim]
theorem nestedInduction {P : Value → Prop} (bool : ∀ t, P (.bool t)) (int : ∀ i, P (.int i))
    (uint : ∀ i, P (.uint i)) (tuple : ∀ items, (∀ v ∈ items, P v) → P (.tuple items))
    (uninit : P .uninit) (v : Value) : P v := by
  refine Value.rec (motive_1 := P) (motive_2 := fun items => ∀ v ∈ items, P v)
    bool int uint tuple uninit ?_ ?_ v
  · intro w hw
    cases hw
  · intro head tail hhead htail w hw
    rcases List.mem_cons.1 hw with rfl | hw
    · exact hhead
    · exact htail w hw

end Value

namespace Ty

/-- Induction over types: a tuple type has the property if all its fields have. -/
@[elab_as_elim]
theorem nestedInduction {P : Ty → Prop} (leaf : ∀ ty, ty.fields? = none → P ty)
    (tuple : ∀ fields, (∀ t ∈ fields, P t) → P (.tuple fields)) (ty : Ty) : P ty := by
  refine Ty.rec (motive_1 := P) (motive_2 := fun fields => ∀ t ∈ fields, P t)
    (leaf _ rfl) (fun _ => leaf _ rfl) (fun _ => leaf _ rfl) (fun _ => leaf _ rfl) tuple
    (fun _ _ _ => leaf _ rfl) (fun _ => leaf _ rfl) (leaf _ rfl) ?_ ?_ ty
  · intro t ht
    cases ht
  · intro head tail hhead htail t ht
    rcases List.mem_cons.1 ht with rfl | ht
    · exact hhead
    · exact htail t ht

end Ty

namespace Value

/-! ### Operations on tuples -/

theorem fitsAll_iff {items : List Value} {fields : List Ty} :
    fitsAll items fields = true ↔ List.Forall₂ (fun v t => v.fits t = true) items fields := by
  induction items generalizing fields with
  | nil => cases fields <;> simp [fitsAll]
  | cons v items ih => cases fields <;> simp [fitsAll, ih]

theorem fits_tuple_iff {items : List Value} {ty : Ty} :
    (Value.tuple items).fits ty = true ↔
      ∃ fields, ty = .tuple fields ∧ List.Forall₂ (fun v t => v.fits t = true) items fields := by
  cases ty <;> simp [fits, fitsAll_iff]

theorem ofTys_eq_ok {fields : List Ty} {items : List Value} :
    ofTys fields = .ok items ↔ List.Forall₂ (fun t v => ofTy t = .ok v) fields items := by
  induction fields generalizing items with
  | nil => cases items <;> simp [ofTys]
  | cons t fields ih =>
    rw [ofTys, bind_eq_ok, List.forall₂_cons_left_iff]
    constructor
    · rintro ⟨v, hv, h⟩
      obtain ⟨vs, hvs, h⟩ := bind_eq_ok.1 h
      exact ⟨v, vs, hv, ih.1 hvs, (Except.ok.inj h).symm⟩
    · rintro ⟨v, vs, hv, hvs, rfl⟩
      exact ⟨v, hv, bind_eq_ok.2 ⟨vs, ih.2 hvs, rfl⟩⟩

theorem ofTy_tuple_eq_ok {fields : List Ty} {v : Value} :
    ofTy (.tuple fields) = .ok v ↔
      ∃ items, List.Forall₂ (fun t w => ofTy t = .ok w) fields items ∧ Value.tuple items = v := by
  rw [ofTy, map_eq_ok]
  simp only [ofTys_eq_ok]

theorem leqAll_eq_ok_true {as bs : List Value} (h : as.length = bs.length) :
    leqAll as bs = .ok true ↔ List.Forall₂ (fun a b => leq a b = .ok true) as bs := by
  induction as generalizing bs with
  | nil =>
    obtain rfl := List.length_eq_zero_iff.1 h.symm
    simp [leqAll]
  | cons a as ih =>
    cases bs with
    | nil => simp at h
    | cons b bs =>
      rw [leqAll, List.forall₂_cons, ← ih (by simpa using h)]
      cases leq a b with
      | error e => simp
      | ok c => cases c <;> simp

theorem leq_tuple_iff {as bs : List Value} :
    leq (.tuple as) (.tuple bs) = .ok true ↔
      List.Forall₂ (fun a b => leq a b = .ok true) as bs := by
  rw [leq]
  split
  · rename_i h
    exact leqAll_eq_ok_true h
  · rename_i h
    simp only [reduceCtorEq, false_iff]
    exact fun hall => h hall.length_eq

/-! ### The greatest value of a type -/

/-- Induction over the types that have a greatest value, together with this value. -/
theorem ofTyInduction {P : Ty → Value → Prop} (bool : P .bool (.bool .top))
    (int : ∀ bits, P (.int bits) (.int .top)) (uint : ∀ bits, P (.uint bits) (.uint .top))
    (tuple : ∀ fields tops, List.Forall₂ P fields tops → P (.tuple fields) (.tuple tops))
    {ty : Ty} {top : Value} (h : ofTy ty = .ok top) : P ty top := by
  induction ty using Ty.nestedInduction generalizing top with
  | leaf ty hleaf =>
    cases ty with
    | bool => cases h; exact bool
    | int bits => cases h; exact int bits
    | uint bits => cases h; exact uint bits
    | tuple fields => cases hleaf
    | float bits => cases h
    | ref pointee isMut => cases h
    | adt name => cases h
    | str => cases h
  | tuple fields ih =>
    obtain ⟨tops, htops, rfl⟩ := ofTy_tuple_eq_ok.1 h
    exact tuple fields tops (forall₂_imp_mem htops fun t ht _ htop => ih t ht htop)

/-- The greatest value of a type fits it. -/
theorem fits_of_ofTy {ty : Ty} {top : Value} (h : ofTy ty = .ok top) : top.fits ty = true := by
  refine ofTyInduction (P := fun ty top => top.fits ty = true) rfl (fun _ => rfl) (fun _ => rfl)
    ?_ h
  intro fields tops hall
  exact fits_tuple_iff.2 ⟨fields, rfl, hall.flip⟩

/-- The greatest values of several types fit them, one by one. -/
theorem fits_of_ofTys {types : List Ty} {tops : List Value} (h : ofTys types = .ok tops) :
    List.Forall₂ (fun v t => v.fits t = true) tops types :=
  ((ofTys_eq_ok.1 h).imp fun _ _ hof => fits_of_ofTy hof).flip

/-- **A type that some value fits has a greatest value, and the value lies below it.** -/
theorem exists_ofTy_of_fits {v : Value} {ty : Ty} (h : v.fits ty = true) :
    ∃ t, ofTy ty = .ok t ∧ leq v t = .ok true := by
  induction v using nestedInduction generalizing ty with
  | bool t =>
    cases ty <;> first | exact absurd h Bool.false_ne_true |
      exact ⟨_, rfl, congrArg Except.ok (Truth.leq_top t)⟩
  | int i =>
    cases ty <;> first | exact absurd h Bool.false_ne_true |
      exact ⟨_, rfl, congrArg Except.ok (Interval.leq_top i)⟩
  | uint i =>
    cases ty <;> first | exact absurd h Bool.false_ne_true |
      exact ⟨_, rfl, congrArg Except.ok (Interval.leq_top i)⟩
  | tuple items ih =>
    obtain ⟨fields, rfl, hall⟩ := fits_tuple_iff.1 h
    obtain ⟨tops, htops, hles⟩ := forall₂_choose hall fun v hv t ht => ih v hv ht
    exact ⟨.tuple tops, ofTy_tuple_eq_ok.2 ⟨tops, htops, rfl⟩, leq_tuple_iff.2 hles⟩
  | uninit => cases ty <;> exact absurd h Bool.false_ne_true

/-- The same for the values and types of two lists. -/
theorem exists_ofTys_of_fits {items : List Value} {fields : List Ty}
    (h : List.Forall₂ (fun v t => v.fits t = true) items fields) :
    ∃ tops, ofTys fields = .ok tops ∧
      List.Forall₂ (fun a b => leq a b = .ok true) items tops := by
  obtain ⟨tops, htops, hles⟩ := forall₂_choose h fun _ _ _ ht => exists_ofTy_of_fits ht
  exact ⟨tops, ofTys_eq_ok.2 htops, hles⟩

end Value

end MirRange
