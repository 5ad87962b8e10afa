import MirRange.Proofs.Lattice

/-!
# What it means to fit a type

Whether a value fits a type is tested by a recursion of its own.  The greatest value of the type,
the greatest value of the same shape and the order are three more recursions over values and types,
and this file shows that they all say the same.

* `Ty.Representable`: the types built from booleans, integers and tuples.
* `Ty.unsupported?`: the first other type among the leaves of a type, from left to right.
* `Value.exists_ofTy_iff`, `Value.ofTy_of_unsupported`: a type has a greatest value if it is
  representable, and otherwise the first unsupported leaf is to blame.
* `Value.fits_top`, `Value.leq_top_ne_false`: fitting a type depends on the shape alone, and no
  comparison with a greatest value is answered with no.
* `Value.fits_iff_top_iff_below`: fitting a type, having its greatest value and lying below that
  value are the same.
-/

namespace MirRange

/-! ### Types that have values -/

namespace Ty

/-- A type is built from booleans, integers and tuples only. -/
inductive Representable : Ty → Prop
  | bool : Representable .bool
  | int (bits : Nat) : Representable (.int bits)
  | uint (bits : Nat) : Representable (.uint bits)
  | tuple {fields : List Ty} : (∀ t ∈ fields, Representable t) → Representable (.tuple fields)

mutual

/-- The leaves of a type, depth first and from left to right: those of its fields for a tuple, and
otherwise the type itself. -/
def leaves : Ty → List Ty
  | .tuple fields => leavesAll fields
  | ty => [ty]

/-- The leaves of the types of a list. -/
def leavesAll : List Ty → List Ty
  | [] => []
  | t :: ts => leaves t ++ leavesAll ts

end

/-- Whether a type is that of truth values or one of integers. -/
def isBasic : Ty → Bool
  | .bool | .int _ | .uint _ => true
  | _ => false

/-- The first leaf of a type that is neither boolean nor an integer type. -/
def unsupported? (ty : Ty) : Option Ty :=
  ty.leaves.find? fun t => !t.isBasic

theorem leavesAll_eq_flatMap (fields : List Ty) : leavesAll fields = fields.flatMap leaves := by
  induction fields with
  | nil => rfl
  | cons t fields ih => rw [leavesAll, ih, List.flatMap_cons]

theorem unsupported?_tuple (fields : List Ty) :
    (Ty.tuple fields).unsupported? = fields.findSome? unsupported? := by
  rw [unsupported?, leaves, leavesAll_eq_flatMap, List.find?_flatMap]
  rfl

theorem representable_tuple_iff {fields : List Ty} :
    (Ty.tuple fields).Representable ↔ ∀ t ∈ fields, t.Representable := by
  refine ⟨?_, .tuple⟩
  intro h
  cases h with
  | tuple hfields => exact hfields

/-- **A type is representable if it has no unsupported leaf.** -/
theorem representable_iff {ty : Ty} : ty.Representable ↔ ty.unsupported? = none := by
  induction ty using nestedInduction with
  | leaf ty hleaf =>
    constructor
    · intro h
      cases h with
      | tuple _ => cases hleaf
      | _ => rfl
    · intro h
      cases ty with
      | bool => exact .bool
      | int bits => exact .int bits
      | uint bits => exact .uint bits
      | tuple fields => cases hleaf
      | _ => cases h
  | tuple fields ih =>
    rw [representable_tuple_iff, unsupported?_tuple, List.findSome?_eq_none_iff]
    exact forall₂_congr ih

theorem exists_unsupported {ty : Ty} (h : ¬ty.Representable) : ∃ t, ty.unsupported? = some t :=
  Option.ne_none_iff_exists'.1 (mt representable_iff.2 h)

end Ty

namespace Value

/-- Of several types, the first one without a greatest value is to blame. -/
theorem ofTys_of_error {before after : List Ty} {t : Ty} {f : Fault}
    (hbefore : ∀ u ∈ before, ∃ v, ofTy u = .ok v) (ht : ofTy t = .error f) :
    ofTys (before ++ t :: after) = .error f := by
  induction before with
  | nil =>
    rw [List.nil_append, ofTys, ht]
    rfl
  | cons u before ih =>
    obtain ⟨v, hv⟩ := hbefore u List.mem_cons_self
    have hrest := ih fun w hw => hbefore w (List.mem_cons_of_mem _ hw)
    rw [List.cons_append, ofTys, hv, hrest]
    rfl

theorem exists_ofTy_of_representable {ty : Ty} (h : ty.Representable) :
    ∃ top, ofTy ty = .ok top := by
  induction h with
  | bool => exact ⟨_, rfl⟩
  | int bits => exact ⟨_, rfl⟩
  | uint bits => exact ⟨_, rfl⟩
  | @tuple fields _ ih =>
    obtain ⟨tops, htops⟩ := exists_forall₂ ih
    exact ⟨.tuple tops, ofTy_tuple_eq_ok.2 ⟨tops, htops, rfl⟩⟩

/-- **A type with an unsupported leaf is refused for the first one.** -/
theorem ofTy_of_unsupported {ty t : Ty} (h : ty.unsupported? = some t) :
    ofTy ty = .error (.noValue t) := by
  induction ty using Ty.nestedInduction with
  | leaf ty hleaf =>
    cases ty with
    | bool => cases h
    | int bits => cases h
    | uint bits => cases h
    | tuple fields => cases hleaf
    | _ => cases h; rfl
  | tuple fields ih =>
    rw [Ty.unsupported?_tuple, List.findSome?_eq_some_iff] at h
    obtain ⟨before, u, after, rfl, hu, hbefore⟩ := h
    have hvalues : ∀ w ∈ before, ∃ v, ofTy w = .ok v := fun w hw =>
      exists_ofTy_of_representable (Ty.representable_iff.2 (hbefore w hw))
    have herror := ih u (List.mem_append_right _ List.mem_cons_self) hu
    rw [ofTy, ofTys_of_error hvalues herror]
    rfl

/-- **The types that have a greatest value are the representable ones.** -/
theorem exists_ofTy_iff {ty : Ty} : (∃ top, ofTy ty = .ok top) ↔ ty.Representable := by
  refine ⟨?_, exists_ofTy_of_representable⟩
  intro h
  by_contra hnot
  obtain ⟨top, htop⟩ := h
  obtain ⟨t, ht⟩ := Ty.exists_unsupported hnot
  rw [ofTy_of_unsupported ht] at htop
  cases htop

/-! ### Greatest values -/

/-- The greatest value of a type is the greatest of its shape. -/
theorem top_of_ofTy {ty : Ty} {top : Value} (h : ofTy ty = .ok top) : top.top = top := by
  refine ofTyInduction (P := fun _ top => top.top = top) rfl (fun _ => rfl) (fun _ => rfl) ?_ h
  intro fields tops hall
  rw [top_tuple]
  have hitems : ∀ v ∈ tops, v.top = v := by
    intro v hv
    obtain ⟨n, hn⟩ := List.mem_iff_getElem?.1 hv
    obtain ⟨t, -, hfix⟩ := getElem?_of_forall₂ hall.flip hn
    exact hfix
  rw [List.map_congr_left hitems, List.map_id']

/-- Whether a value fits a type depends on its shape alone. -/
theorem fits_top {v : Value} {ty : Ty} : v.top.fits ty = true ↔ v.fits ty = true := by
  induction v using nestedInduction generalizing ty with
  | tuple items ih =>
    rw [top_tuple, fits_tuple_iff, fits_tuple_iff]
    refine exists_congr fun fields => and_congr_right fun _ => ?_
    rw [List.forall₂_map_left_iff]
    exact ⟨fun h => forall₂_imp_mem h fun v hv _ => (ih v hv).1,
      fun h => forall₂_imp_mem h fun v hv _ => (ih v hv).2⟩
  | _ => cases ty <;> rfl

theorem leqAll_ne_false {as bs : List Value} (h : ∀ a ∈ as, ∀ b ∈ bs, leq a b ≠ .ok false) :
    leqAll as bs ≠ .ok false := by
  induction as generalizing bs with
  | nil => simp [leqAll]
  | cons a as ih =>
    cases bs with
    | nil => simp [leqAll]
    | cons b bs =>
      have hhead := h a List.mem_cons_self b List.mem_cons_self
      have htail : leqAll as bs ≠ .ok false := ih fun a' ha b' hb =>
        h a' (List.mem_cons_of_mem _ ha) b' (List.mem_cons_of_mem _ hb)
      rw [leqAll]
      cases hleq : leq a b with
      | error e => simp
      | ok c =>
        cases c with
        | false => exact absurd hleq hhead
        | true => exact htail

/-- **No comparison with a greatest value is answered with no**: it is answered with yes, or the
values cannot be compared. -/
theorem leq_top_ne_false (v w : Value) : v.leq w.top ≠ .ok false := by
  induction v using nestedInduction generalizing w with
  | bool t => cases w <;> simp [leq, top, Truth.leq_top]
  | int i => cases w <;> simp [leq, top, Interval.leq_top]
  | uint i => cases w <;> simp [leq, top, Interval.leq_top]
  | uninit => cases w <;> simp [leq, top]
  | tuple as ih =>
    cases w with
    | tuple bs =>
      rw [top_tuple, leq, List.length_map]
      split
      · refine leqAll_ne_false fun a ha b' hb' => ?_
        obtain ⟨b, -, rfl⟩ := List.mem_map.1 hb'
        exact ih a ha b
      · simp
    | _ => simp [leq, top]

/-! ### Three notions of fitting -/

/-- What lies below the greatest value of a type has its shape. -/
theorem top_eq_of_leq_ofTy {v top : Value} {ty : Ty} (htop : ofTy ty = .ok top)
    (h : v.leq top = .ok true) : v.top = top :=
  calc v.top = top.top := sameShape_iff_top_eq.1 (sameShape_of_le h)
    _ = top := top_of_ofTy htop

theorem fits_iff_ofTy_eq_top {v : Value} {ty : Ty} :
    v.fits ty = true ↔ ofTy ty = .ok v.top := by
  constructor
  · intro h
    obtain ⟨top, htop, hle⟩ := exists_ofTy_of_fits h
    rw [top_eq_of_leq_ofTy htop hle]
    exact htop
  · intro h
    exact fits_top.1 (fits_of_ofTy h)

theorem fits_iff_leq_ofTy {v : Value} {ty : Ty} {top : Value} (htop : ofTy ty = .ok top) :
    v.fits ty = true ↔ v.leq top = .ok true := by
  rw [fits_iff_ofTy_eq_top, htop, Except.ok.injEq]
  constructor
  · intro h
    rw [h]
    exact le_top v
  · intro h
    exact (top_eq_of_leq_ofTy htop h).symm

/-- **Three notions of fitting a type coincide.**  Whatever the value and the type are,

* the value fits the type exactly if the type has a greatest value and this is the greatest value of
  the shape of `v`, and exactly if the type has a greatest value and `v` lies below it;
* where the type has a greatest value and `v` does not fit, comparing the two violates a
  precondition and is not answered with no;
* the types that have a greatest value are those built from booleans, integers and tuples only, and
  any other type is refused as not supported under the name of its first unsupported leaf. -/
theorem fits_iff_top_iff_below (v : Value) (ty : Ty) :
    (v.fits ty = true ↔ ∃ top, ofTy ty = .ok top ∧ v.top = top) ∧
    (v.fits ty = true ↔ ∃ top, ofTy ty = .ok top ∧ v.leq top = .ok true) ∧
    (∀ top, ofTy ty = .ok top → v.fits ty = false → ∃ violation, v.leq top = .error violation) ∧
    ((∃ top, ofTy ty = .ok top) ↔ ty.Representable) ∧
    (¬ty.Representable → ∃ t f, ty.unsupported? = some t ∧ ofTy ty = .error f ∧
      f.problem = ⟨.notImplemented, "No abstract value for type '" ++ t.text ++ "'",
        [("type", .text t.text)]⟩) := by
  refine ⟨?_, ?_, ?_, exists_ofTy_iff, ?_⟩
  · rw [fits_iff_ofTy_eq_top]
    simp
  · constructor
    · exact exists_ofTy_of_fits
    · intro h
      obtain ⟨top, htop, hle⟩ := h
      exact (fits_iff_leq_ofTy htop).2 hle
  · intro top htop hfits
    cases hleq : v.leq top with
    | error violation => exact ⟨violation, rfl⟩
    | ok c =>
      cases c with
      | true =>
        rw [(fits_iff_leq_ofTy htop).2 hleq] at hfits
        cases hfits
      | false =>
        rw [← top_of_ofTy htop] at hleq
        exact absurd hleq (leq_top_ne_false v top)
  · intro h
    obtain ⟨t, ht⟩ := Ty.exists_unsupported h
    exact ⟨t, .noValue t, ht, ofTy_of_unsupported ht, rfl⟩

/-- A pair with a slot that holds no value, which fits no type, and a type with two unsupported
leaves, of which the deeper one comes first. -/
theorem fits_iff_top_iff_below_slot :
    (∃ violation, (Value.tuple [.bool .bot, .tuple [.uninit]]).leq
      (.tuple [.bool .top, .tuple [.uint .top]]) = .error violation) ∧
    ∃ f, ofTy (.tuple [.bool, .tuple [.int 8, .float 32], .str]) = .error f ∧
      f.message = "No abstract value for type 'f32'" := by
  have hslot := fits_iff_top_iff_below (.tuple [.bool .bot, .tuple [.uninit]])
    (.tuple [.bool, .tuple [.uint 8]])
  have hfloat := fits_iff_top_iff_below .uninit (.tuple [.bool, .tuple [.int 8, .float 32], .str])
  refine ⟨hslot.2.2.1 _ rfl rfl, ?_⟩
  have hnot : ¬(Ty.tuple [.bool, .tuple [.int 8, .float 32], .str]).Representable := by
    rw [Ty.representable_iff]
    exact nofun
  obtain ⟨t, f, ht, hf, hproblem⟩ := hfloat.2.2.2.2 hnot
  obtain rfl : Ty.float 32 = t := Option.some.inj ht
  exact ⟨f, hf, congrArg Problem.message hproblem⟩

end Value

end MirRange
