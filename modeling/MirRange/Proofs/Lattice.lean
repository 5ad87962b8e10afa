import Mathlib.Order.Basic
import MirRange.Proofs.Shape

/-!
# The lattice of values

Values of one shape form a join-semilattice with a greatest element, and joins across shapes are
refused.  The laws hold at truth values and at intervals and are carried through tuples by one
induction over the results of `Value.combine`; what concerns joins alone then follows from their
being least upper bounds.

* `Value.SameShape`: no position tells two values apart by variant or arity;
  `Value.sameShape_iff_top_eq`: this is so if they lie below the same greatest value.
* `Value.combineInduction`: induction over two values together with their combination.
* `Value.join_eq_ok_iff`: joins are exactly the least upper bounds.
* `Value.join_semilattice`: the laws together.
-/

namespace MirRange

/-- Two computations are the same up to their errors if they give the same results. -/
theorem toOption_eq_iff {ε α : Type} {x y : Except ε α} :
    x.toOption = y.toOption ↔ ∀ a, x = .ok a ↔ y = .ok a := by
  have hsome : ∀ (z : Except ε α) (a : α), z.toOption = some a ↔ z = .ok a := by
    intro z a
    cases z <;> simp [Except.toOption]
  rw [Option.ext_iff]
  refine forall_congr' fun a => ?_
  rw [hsome x, hsome y]

/-! ### Truth values and intervals -/

namespace Truth

theorem leq_trans {s t u : Truth} (hst : s.leq t = Bool.true) (htu : t.leq u = Bool.true) :
    s.leq u = Bool.true := by
  revert hst htu
  cases s <;> cases t <;> cases u <;> decide

theorem leq_antisymm {s t : Truth} (hst : s.leq t = Bool.true) (hts : t.leq s = Bool.true) :
    s = t := by
  revert hst hts
  cases s <;> cases t <;> decide

theorem join_leq_iff {s t u : Truth} :
    (s.join t).leq u = Bool.true ↔ s.leq u = Bool.true ∧ t.leq u = Bool.true := by
  cases s <;> cases t <;> cases u <;> decide

end Truth

namespace Bound

theorem le_min_iff {a b c : Bound} :
    le c (min a b) = true ↔ le c a = true ∧ le c b = true := by
  unfold min
  split
  · rename_i hba
    exact ⟨fun hcb => ⟨le_trans hcb (le_of_lt hba), hcb⟩, fun h => h.2⟩
  · rename_i hba
    have hab : le a b = true := by simpa [le] using hba
    exact ⟨fun hca => ⟨hca, le_trans hca hab⟩, fun h => h.1⟩

theorem max_le_iff {a b c : Bound} :
    le (max a b) c = true ↔ le a c = true ∧ le b c = true := by
  unfold max
  split
  · rename_i hab
    exact ⟨fun hbc => ⟨le_trans (le_of_lt hab) hbc, hbc⟩, fun h => h.2⟩
  · rename_i hab
    have hba : le b a = true := by simpa [le] using hab
    exact ⟨fun hac => ⟨hac, le_trans hba hac⟩, fun h => h.1⟩

end Bound

namespace Interval

theorem leq_trans {i j k : Interval} (hij : i.leq j = true) (hjk : j.leq k = true) :
    i.leq k = true := by
  rw [leq_iff] at hij hjk ⊢
  exact ⟨Bound.le_trans hjk.1 hij.1, Bound.le_trans hij.2 hjk.2⟩

theorem leq_antisymm {i j : Interval} (hij : i.leq j = true) (hji : j.leq i = true) : i = j := by
  rw [leq_iff] at hij hji
  have hlower : i.lower = j.lower := Bound.le_antisymm hji.1 hij.1
  have hupper : i.upper = j.upper := Bound.le_antisymm hij.2 hji.2
  calc i = ⟨i.lower, i.upper⟩ := rfl
    _ = j := by rw [hlower, hupper]

theorem join_leq_iff {i j k : Interval} :
    (i.join j).leq k = true ↔ i.leq k = true ∧ j.leq k = true := by
  rw [leq_iff, leq_iff, leq_iff, join, Bound.le_min_iff, Bound.max_le_iff]
  exact and_and_and_comm

end Interval

/-! ### Shapes -/

namespace Value

/-- Two values have the same shape: wherever a path leads in both of them, it leads to values of one
variant, and to tuples of one arity. -/
def SameShape (v w : Value) : Prop :=
  ∀ path a b, Nested.follow? path v = some a → Nested.follow? path w = some b →
    a.variant = b.variant ∧ a.arity = b.arity

theorem SameShape.variant_eq {v w : Value} (h : v.SameShape w) : v.variant = w.variant :=
  (h [] v w rfl rfl).1

/-- A value that is no tuple has only itself as a part. -/
theorem eq_of_follow?_leaf {v part : Value} (hv : v.variant ≠ .tuple) {path : List Projection}
    (h : Nested.follow? path v = some part) : part = v := by
  cases path with
  | nil => exact (Option.some.inj h).symm
  | cons step path =>
    cases step with
    | field i =>
      obtain ⟨items, _, hitems, -, -⟩ := Nested.follow?_field_eq_some.1 h
      obtain rfl := items?_eq_some.1 hitems
      exact absurd rfl hv
    | deref => simp [Nested.follow?] at h
    | index n => simp [Nested.follow?] at h

theorem arity_of_leaf {v : Value} (hv : v.variant ≠ .tuple) : v.arity = 0 := by
  cases v <;> first | rfl | exact absurd rfl hv

/-- Among values that are no tuples the variant is the shape. -/
theorem sameShape_iff_of_leaf {v w : Value} (hv : v.variant ≠ .tuple) :
    v.SameShape w ↔ v.variant = w.variant := by
  refine ⟨SameShape.variant_eq, ?_⟩
  intro h path a b ha hb
  have hw : w.variant ≠ .tuple := h ▸ hv
  obtain rfl := eq_of_follow?_leaf hv ha
  obtain rfl := eq_of_follow?_leaf hw hb
  exact ⟨h, (arity_of_leaf hv).trans (arity_of_leaf hw).symm⟩

/-- Tuples have the same shape if their items have, one by one. -/
theorem sameShape_tuple_iff {as bs : List Value} :
    (Value.tuple as).SameShape (.tuple bs) ↔ List.Forall₂ SameShape as bs := by
  constructor
  · intro h
    refine List.forall₂_iff_get.2 ⟨(h [] _ _ rfl rfl).2, ?_⟩
    intro n hn hn' path a b ha hb
    have hstep : ∀ {items : List Value} (hlt : n < items.length) {part : Value},
        Nested.follow? path (items.get ⟨n, hlt⟩) = some part →
          Nested.follow? (.field n :: path) (Value.tuple items) = some part := by
      intro items hlt part hpart
      refine Nested.follow?_field_eq_some.2 ⟨items, _, rfl, at?_eq_some.2 ⟨by omega, ?_⟩, hpart⟩
      rw [Int.toNat_natCast, List.get_eq_getElem]
      exact List.getElem?_eq_getElem hlt
    exact h (.field n :: path) a b (hstep hn ha) (hstep hn' hb)
  · intro hall path a b ha hb
    cases path with
    | nil =>
      cases ha
      cases hb
      exact ⟨rfl, hall.length_eq⟩
    | cons step path =>
      cases step with
      | field i =>
        obtain ⟨_, inner, hitems, hinner, ha⟩ := Nested.follow?_field_eq_some.1 ha
        obtain ⟨_, inner', hitems', hinner', hb⟩ := Nested.follow?_field_eq_some.1 hb
        cases hitems
        cases hitems'
        obtain ⟨_, hsome, hshape⟩ := at?_of_forall₂ hall hinner
        obtain rfl := Option.some.inj (hsome.symm.trans hinner')
        exact hshape path a b ha hb
      | deref => simp [Nested.follow?] at ha
      | index n => simp [Nested.follow?] at ha

theorem tops_eq_map (items : List Value) : tops items = items.map top := by
  induction items with
  | nil => rfl
  | cons v items ih => rw [tops, ih, List.map_cons]

@[simp] theorem top_tuple (items : List Value) :
    (Value.tuple items).top = .tuple (items.map top) := by
  rw [top, tops_eq_map]

@[simp] theorem variant_top (v : Value) : v.top.variant = v.variant := by
  cases v <;> rfl

theorem top_tuple_eq_iff {as bs : List Value} :
    (Value.tuple as).top = (Value.tuple bs).top ↔
      List.Forall₂ (fun a b => a.top = b.top) as bs := by
  rw [top_tuple, top_tuple, Value.tuple.injEq, ← List.forall₂_eq_eq_eq, List.forall₂_map_left_iff,
    List.forall₂_map_right_iff]

theorem top_eq_iff_of_leaf {v w : Value} (hv : v.variant ≠ .tuple) :
    v.top = w.top ↔ v.variant = w.variant := by
  constructor
  · intro h
    rw [← variant_top v, h, variant_top]
  · intro h
    cases v <;> cases w <;> first | rfl | exact absurd rfl hv | cases h

/-- **Two values have the same shape if they have the same greatest value.** -/
theorem sameShape_iff_top_eq {v w : Value} : v.SameShape w ↔ v.top = w.top := by
  have hleaf : ∀ {v w : Value}, v.variant ≠ .tuple → (v.SameShape w ↔ v.top = w.top) :=
    fun hv => (sameShape_iff_of_leaf hv).trans (top_eq_iff_of_leaf hv).symm
  induction v using nestedInduction generalizing w with
  | tuple items ih =>
    by_cases hw : w.variant = .tuple
    · cases w with
      | tuple items' =>
        rw [sameShape_tuple_iff, top_tuple_eq_iff]
        exact ⟨fun h => forall₂_imp_mem h fun v hv _ => (ih v hv).1,
          fun h => forall₂_imp_mem h fun v hv _ => (ih v hv).2⟩
      | _ => cases hw
    · refine iff_of_false (fun h => hw h.variant_eq.symm) (fun h => hw ?_)
      rw [← variant_top w, ← h]
      rfl
  | bool t => exact hleaf nofun
  | int i => exact hleaf nofun
  | uint i => exact hleaf nofun
  | uninit => exact hleaf nofun

theorem SameShape.symm {v w : Value} (h : v.SameShape w) : w.SameShape v :=
  sameShape_iff_top_eq.2 (sameShape_iff_top_eq.1 h).symm

theorem SameShape.trans {u v w : Value} (h : u.SameShape v) (h' : v.SameShape w) : u.SameShape w :=
  sameShape_iff_top_eq.2 ((sameShape_iff_top_eq.1 h).trans (sameShape_iff_top_eq.1 h'))

theorem top_top (v : Value) : v.top.top = v.top := by
  induction v using nestedInduction with
  | tuple items ih =>
    rw [top_tuple, top_tuple, List.map_map]
    exact congrArg Value.tuple (List.map_congr_left ih)
  | _ => rfl

/-! ### The order -/

theorem bool_leq_iff {s : Truth} {w : Value} :
    leq (.bool s) w = .ok true ↔ ∃ t, w = .bool t ∧ s.leq t = true := by
  cases w <;> simp [leq]

theorem int_leq_iff {i : Interval} {w : Value} :
    leq (.int i) w = .ok true ↔ ∃ j, w = .int j ∧ i.leq j = true := by
  cases w <;> simp [leq]

theorem uint_leq_iff {i : Interval} {w : Value} :
    leq (.uint i) w = .ok true ↔ ∃ j, w = .uint j ∧ i.leq j = true := by
  cases w <;> simp [leq]

theorem tuple_leq_iff {as : List Value} {w : Value} :
    leq (.tuple as) w = .ok true ↔
      ∃ bs, w = .tuple bs ∧ List.Forall₂ (fun a b => leq a b = .ok true) as bs := by
  cases w with
  | tuple bs => simp [leq_tuple_iff]
  | _ => simp [leq]

theorem uninit_leq_iff {w : Value} : leq .uninit w = .ok true ↔ w = .uninit := by
  cases w <;> simp [leq]

/-- Induction over two values in order. -/
theorem orderInduction {P : Value → Value → Prop}
    (bool : ∀ s t : Truth, s.leq t = true → P (.bool s) (.bool t))
    (int : ∀ i j : Interval, i.leq j = true → P (.int i) (.int j))
    (uint : ∀ i j : Interval, i.leq j = true → P (.uint i) (.uint j))
    (tuple : ∀ as bs, List.Forall₂ P as bs → P (.tuple as) (.tuple bs))
    (uninit : P .uninit .uninit) {v w : Value} (h : v.leq w = .ok true) : P v w := by
  induction v using nestedInduction generalizing w with
  | bool s =>
    obtain ⟨t, rfl, hst⟩ := bool_leq_iff.1 h
    exact bool s t hst
  | int i =>
    obtain ⟨j, rfl, hij⟩ := int_leq_iff.1 h
    exact int i j hij
  | uint i =>
    obtain ⟨j, rfl, hij⟩ := uint_leq_iff.1 h
    exact uint i j hij
  | tuple as ih =>
    obtain ⟨bs, rfl, hall⟩ := tuple_leq_iff.1 h
    exact tuple as bs (forall₂_imp_mem hall fun a ha _ hab => ih a ha hab)
  | uninit =>
    obtain rfl := uninit_leq_iff.1 h
    exact uninit

theorem leq_self (v : Value) : v.leq v = .ok true := by
  induction v using nestedInduction with
  | bool s => exact congrArg Except.ok (Truth.leq_refl s)
  | int i => exact congrArg Except.ok (Interval.leq_refl i)
  | uint i => exact congrArg Except.ok (Interval.leq_refl i)
  | tuple items ih => exact leq_tuple_iff.2 (List.forall₂_same.2 ih)
  | uninit => rfl

theorem leq_trans {u v w : Value} (huv : u.leq v = .ok true) (hvw : v.leq w = .ok true) :
    u.leq w = .ok true := by
  refine orderInduction (P := fun u v => ∀ w, v.leq w = .ok true → u.leq w = .ok true)
    ?_ ?_ ?_ ?_ ?_ huv w hvw
  · intro s t hst w htw
    obtain ⟨r, rfl, htr⟩ := bool_leq_iff.1 htw
    exact bool_leq_iff.2 ⟨r, rfl, Truth.leq_trans hst htr⟩
  · intro i j hij w hjw
    obtain ⟨k, rfl, hjk⟩ := int_leq_iff.1 hjw
    exact int_leq_iff.2 ⟨k, rfl, Interval.leq_trans hij hjk⟩
  · intro i j hij w hjw
    obtain ⟨k, rfl, hjk⟩ := uint_leq_iff.1 hjw
    exact uint_leq_iff.2 ⟨k, rfl, Interval.leq_trans hij hjk⟩
  · intro as bs hall w hbw
    obtain ⟨cs, rfl, hall'⟩ := tuple_leq_iff.1 hbw
    exact tuple_leq_iff.2 ⟨cs, rfl, forall₂_comp hall hall' fun _ _ c hab hbc => hab c hbc⟩
  · exact fun _ h => h

theorem leq_antisymm {v w : Value} (hvw : v.leq w = .ok true) (hwv : w.leq v = .ok true) :
    v = w := by
  refine orderInduction (P := fun v w => w.leq v = .ok true → v = w) ?_ ?_ ?_ ?_ ?_ hvw hwv
  · intro s t hst hts
    exact congrArg Value.bool (Truth.leq_antisymm hst (Except.ok.inj hts))
  · intro i j hij hji
    exact congrArg Value.int (Interval.leq_antisymm hij (Except.ok.inj hji))
  · intro i j hij hji
    exact congrArg Value.uint (Interval.leq_antisymm hij (Except.ok.inj hji))
  · intro as bs hall hba
    have hboth : List.Forall₂ Eq as bs :=
      hall.mp (fun _ _ hab hba => hab hba) (leq_tuple_iff.1 hba).flip
    rw [List.forall₂_eq_eq_eq] at hboth
    exact congrArg Value.tuple hboth
  · exact fun _ => rfl

/-- Values are partially ordered; values of different shapes are not comparable. -/
instance : PartialOrder Value where
  le v w := v.leq w = .ok true
  le_refl := leq_self
  le_trans _ _ _ := leq_trans
  le_antisymm _ _ := leq_antisymm

theorem le_iff {v w : Value} : v ≤ w ↔ v.leq w = .ok true := Iff.rfl

theorem tuple_le_tuple_iff {as bs : List Value} :
    Value.tuple as ≤ .tuple bs ↔ List.Forall₂ (· ≤ ·) as bs :=
  leq_tuple_iff

/-- Only values of one shape are in order. -/
theorem sameShape_of_le {v w : Value} (h : v ≤ w) : v.SameShape w := by
  refine sameShape_iff_top_eq.2 (orderInduction (P := fun v w => v.top = w.top)
    (fun _ _ _ => rfl) (fun _ _ _ => rfl) (fun _ _ _ => rfl) ?_ rfl h)
  exact fun as bs hall => top_tuple_eq_iff.2 hall

theorem le_top (v : Value) : v ≤ v.top := by
  induction v using nestedInduction with
  | bool s => exact congrArg Except.ok (Truth.leq_top s)
  | int i => exact congrArg Except.ok (Interval.leq_top i)
  | uint i => exact congrArg Except.ok (Interval.leq_top i)
  | tuple items ih =>
    rw [top_tuple, tuple_le_tuple_iff, List.forall₂_map_right_iff]
    exact List.forall₂_same.2 ih
  | uninit => exact le_refl _

/-- The order on tuples is decided by the first pair not in order, whatever comes after it. -/
theorem leq_tuple_of_false {as bs cs ds : List Value} {a b : Value}
    (hall : List.Forall₂ (fun a b => leq a b = .ok true) as bs) (hab : a.leq b = .ok false)
    (hlen : cs.length = ds.length) :
    leq (.tuple (as ++ a :: cs)) (.tuple (bs ++ b :: ds)) = .ok false := by
  have hlen' : (as ++ a :: cs).length = (bs ++ b :: ds).length := by
    simp [hall.length_eq, hlen]
  rw [leq, if_pos hlen']
  clear hlen'
  induction hall with
  | nil => simp [leqAll, hab]
  | cons hle _ ih => simp [leqAll, hle, ih]

end Value

/-! ### Combinations -/

/-- Three lists of one length whose items are related one by one. -/
inductive Forall₃ {α β γ : Type} (P : α → β → γ → Prop) : List α → List β → List γ → Prop
  | nil : Forall₃ P [] [] []
  | cons {a b c as bs cs} : P a b c → Forall₃ P as bs cs → Forall₃ P (a :: as) (b :: bs) (c :: cs)

namespace Forall₃

variable {α β γ : Type} {P Q : α → β → γ → Prop} {as : List α} {bs : List β} {cs : List γ}

theorem imp_mem (h : Forall₃ P as bs cs) (himp : ∀ a ∈ as, ∀ b c, P a b c → Q a b c) :
    Forall₃ Q as bs cs := by
  induction h with
  | nil => exact .nil
  | cons hab _ ih =>
    exact .cons (himp _ List.mem_cons_self _ _ hab)
      (ih fun a ha => himp a (List.mem_cons_of_mem _ ha))

/-- If two related items always have a third one, two related lists have a third one. -/
theorem choose {R : α → β → Prop} (h : List.Forall₂ R as bs)
    (hex : ∀ a ∈ as, ∀ b, R a b → ∃ c, P a b c) : ∃ cs, Forall₃ P as bs cs := by
  induction h with
  | nil => exact ⟨[], .nil⟩
  | cons hab _ ih =>
    obtain ⟨c, hc⟩ := hex _ List.mem_cons_self _ hab
    obtain ⟨cs, hcs⟩ := ih fun a ha => hex a (List.mem_cons_of_mem _ ha)
    exact ⟨c :: cs, .cons hc hcs⟩

theorem left {R : α → β → Prop} (h : Forall₃ P as bs cs) (himp : ∀ a b c, P a b c → R a b) :
    List.Forall₂ R as bs := by
  induction h with
  | nil => exact .nil
  | cons habc _ ih => exact .cons (himp _ _ _ habc) ih

theorem right {R : β → γ → Prop} (h : Forall₃ P as bs cs) (himp : ∀ a b c, P a b c → R b c) :
    List.Forall₂ R bs cs := by
  induction h with
  | nil => exact .nil
  | cons habc _ ih => exact .cons (himp _ _ _ habc) ih

theorem outer {R : α → γ → Prop} (h : Forall₃ P as bs cs) (himp : ∀ a b c, P a b c → R a c) :
    List.Forall₂ R as cs := by
  induction h with
  | nil => exact .nil
  | cons habc _ ih => exact .cons (himp _ _ _ habc) ih

theorem length_eq (h : Forall₃ P as bs cs) : as.length = bs.length :=
  (h.left (R := fun _ _ => True) fun _ _ _ _ => trivial).length_eq

end Forall₃

namespace Value

section

variable {f : Truth → Truth → Truth} {g : Interval → Interval → Interval}

theorem combineAll_eq_ok {as bs cs : List Value} (h : as.length = bs.length) :
    combineAll f g as bs = .ok cs ↔
      Forall₃ (fun a b c => combine f g a b = .ok c) as bs cs := by
  induction as generalizing bs cs with
  | nil =>
    obtain rfl := List.length_eq_zero_iff.1 h.symm
    constructor
    · intro h
      cases h
      exact .nil
    · intro h
      cases h
      rfl
  | cons a as ih =>
    cases bs with
    | nil => cases h
    | cons b bs =>
      have hlen : as.length = bs.length := Nat.succ.inj h
      constructor
      · intro h
        rw [combineAll] at h
        cases hc : combine f g a b with
        | error e =>
          rw [hc] at h
          cases h
        | ok c =>
          rw [hc] at h
          obtain ⟨cs, hcs, rfl⟩ := map_eq_ok.1 h
          exact .cons hc ((ih hlen).1 hcs)
      · intro h
        cases h with
        | cons hc hcs =>
          rw [combineAll, hc]
          exact map_eq_ok.2 ⟨_, (ih hlen).2 hcs, rfl⟩

theorem combine_tuple_eq_ok {as bs : List Value} {c : Value} :
    combine f g (.tuple as) (.tuple bs) = .ok c ↔
      ∃ cs, c = .tuple cs ∧ Forall₃ (fun a b c => combine f g a b = .ok c) as bs cs := by
  rw [combine]
  split
  · rename_i hlen
    rw [map_eq_ok]
    refine exists_congr fun cs => ?_
    rw [combineAll_eq_ok hlen, and_comm, eq_comm]
  · rename_i hlen
    refine iff_of_false nofun ?_
    rintro ⟨cs, -, hcs⟩
    exact hlen hcs.length_eq

/-- **Induction over two values together with their combination.** -/
theorem combineInduction {P : Value → Value → Value → Prop}
    (bool : ∀ s t, P (.bool s) (.bool t) (.bool (f s t)))
    (int : ∀ i j, P (.int i) (.int j) (.int (g i j)))
    (uint : ∀ i j, P (.uint i) (.uint j) (.uint (g i j)))
    (tuple : ∀ as bs cs, Forall₃ P as bs cs → P (.tuple as) (.tuple bs) (.tuple cs))
    (uninit : P .uninit .uninit .uninit) {a b c : Value} (h : combine f g a b = .ok c) :
    P a b c := by
  induction a using nestedInduction generalizing b c with
  | bool s =>
    cases b <;> cases h
    exact bool _ _
  | int i =>
    cases b <;> cases h
    exact int _ _
  | uint i =>
    cases b <;> cases h
    exact uint _ _
  | tuple as ih =>
    cases b with
    | tuple bs =>
      obtain ⟨cs, rfl, hall⟩ := combine_tuple_eq_ok.1 h
      exact tuple as bs cs (hall.imp_mem fun a ha _ _ hc => ih a ha hc)
    | _ => cases h
  | uninit =>
    cases b <;> cases h
    exact uninit

/-- The combination of two values has their shape. -/
theorem sameShape_of_combine {a b c : Value} (h : combine f g a b = .ok c) :
    a.SameShape b ∧ a.SameShape c := by
  rw [sameShape_iff_top_eq, sameShape_iff_top_eq]
  refine combineInduction (f := f) (g := g) (P := fun a b c => a.top = b.top ∧ a.top = c.top)
    (fun _ _ => ⟨rfl, rfl⟩) (fun _ _ => ⟨rfl, rfl⟩) (fun _ _ => ⟨rfl, rfl⟩) ?_ ⟨rfl, rfl⟩ h
  intro as bs cs hall
  exact ⟨top_tuple_eq_iff.2 (hall.left fun _ _ _ h => h.1),
    top_tuple_eq_iff.2 (hall.outer fun _ _ _ h => h.2)⟩

/-- **Two values can be combined if and only if they have the same shape.** -/
theorem exists_combine_iff {a b : Value} : (∃ c, combine f g a b = .ok c) ↔ a.SameShape b := by
  refine ⟨fun ⟨c, hc⟩ => (sameShape_of_combine hc).1, ?_⟩
  intro h
  induction a using nestedInduction generalizing b with
  | tuple as ih =>
    cases b with
    | tuple bs =>
      obtain ⟨cs, hcs⟩ := Forall₃.choose (sameShape_tuple_iff.1 h) fun a ha b hab => ih a ha hab
      exact ⟨.tuple cs, combine_tuple_eq_ok.2 ⟨cs, rfl, hcs⟩⟩
    | _ => cases h.variant_eq
  | bool s => cases b <;> first | exact ⟨_, rfl⟩ | cases h.variant_eq
  | int i => cases b <;> first | exact ⟨_, rfl⟩ | cases h.variant_eq
  | uint i => cases b <;> first | exact ⟨_, rfl⟩ | cases h.variant_eq
  | uninit => cases b <;> first | exact ⟨_, rfl⟩ | cases h.variant_eq

/-- Two values are refused if and only if they differ in shape. -/
theorem combine_refused_iff {a b : Value} :
    (∃ e, combine f g a b = .error e) ↔ ¬a.SameShape b := by
  rw [← exists_combine_iff (f := f) (g := g)]
  cases combine f g a b <;> simp

theorem combineAll_error_of {f' : Truth → Truth → Truth} {g' : Interval → Interval → Interval}
    {as bs : List Value} {e : Violation}
    (hitem : ∀ a ∈ as, ∀ b e, combine f g a b = .error e → combine f' g' a b = .error e)
    (h : combineAll f g as bs = .error e) : combineAll f' g' as bs = .error e := by
  induction as generalizing bs with
  | nil => cases h
  | cons a as ih =>
    cases bs with
    | nil => cases h
    | cons b bs =>
      rw [combineAll] at h ⊢
      cases hc : combine f g a b with
      | error e' =>
        rw [hitem a List.mem_cons_self b e' hc]
        rw [hc] at h
        exact h
      | ok c =>
        obtain ⟨c', hc'⟩ : ∃ c', combine f' g' a b = .ok c' :=
          exists_combine_iff.2 (sameShape_of_combine hc).1
        rw [hc] at h
        rw [hc']
        exact map_eq_error.2 (ih (fun a ha => hitem a (List.mem_cons_of_mem _ ha))
          (map_eq_error.1 h))

/-- The violation does not depend on how leaves are combined. -/
theorem combine_error_of {f' : Truth → Truth → Truth} {g' : Interval → Interval → Interval}
    {a b : Value} {e : Violation} (h : combine f g a b = .error e) :
    combine f' g' a b = .error e := by
  induction a using nestedInduction generalizing b e with
  | tuple as ih =>
    cases b with
    | tuple bs =>
      rw [combine] at h ⊢
      split at h
      · rename_i hlen
        rw [if_pos hlen, map_eq_error]
        exact combineAll_error_of (fun a ha _ _ => ih a ha) (map_eq_error.1 h)
      · rename_i hlen
        rw [if_neg hlen]
        exact h
    | _ => exact h
  | bool s => cases b <;> first | exact h | cases h
  | int i => cases b <;> first | exact h | cases h
  | uint i => cases b <;> first | exact h | cases h
  | uninit => cases b <;> exact h

end

/-! ### Joins -/

/-- A join lies below exactly what both values lie below. -/
theorem join_le_iff {a b j c : Value} (h : a.join b = .ok j) : j ≤ c ↔ a ≤ c ∧ b ≤ c := by
  refine combineInduction (P := fun a b j => ∀ c, j ≤ c ↔ a ≤ c ∧ b ≤ c) ?_ ?_ ?_ ?_ ?_ h c
  · intro s t c
    cases c with
    | bool r => simp [le_iff, leq, Truth.join_leq_iff]
    | _ => simp [le_iff, leq]
  · intro s t c
    cases c with
    | int r => simp [le_iff, leq, Interval.join_leq_iff]
    | _ => simp [le_iff, leq]
  · intro s t c
    cases c with
    | uint r => simp [le_iff, leq, Interval.join_leq_iff]
    | _ => simp [le_iff, leq]
  · intro as bs js hall c
    cases c with
    | tuple cs =>
      rw [tuple_le_tuple_iff, tuple_le_tuple_iff, tuple_le_tuple_iff]
      induction hall generalizing cs with
      | nil => exact and_self_iff.symm
      | cons hj _ ih =>
        cases cs with
        | nil => simp
        | cons c cs =>
          rw [List.forall₂_cons, List.forall₂_cons, List.forall₂_cons, hj c, ih cs,
            and_and_and_comm]
    | _ => simp [le_iff, leq]
  · exact fun c => and_self_iff.symm

/-- **Joins are exactly the least upper bounds.** -/
theorem join_eq_ok_iff {a b j : Value} : a.join b = .ok j ↔ ∀ c, j ≤ c ↔ a ≤ c ∧ b ≤ c := by
  refine ⟨fun h c => join_le_iff h, ?_⟩
  intro h
  obtain ⟨ha, hb⟩ := (h j).1 (le_refl j)
  have hshape : a.SameShape b := (sameShape_of_le ha).trans (sameShape_of_le hb).symm
  obtain ⟨j', hj'⟩ : ∃ j', a.join b = .ok j' := exists_combine_iff.2 hshape
  have hle : j ≤ j' := (h j').2 ((join_le_iff hj').1 (le_refl j'))
  have hge : j' ≤ j := (join_le_iff hj').2 ⟨ha, hb⟩
  rw [hj', le_antisymm hge hle]

theorem join_self (a : Value) : a.join a = .ok a :=
  join_eq_ok_iff.2 fun _ => and_self_iff.symm

theorem join_comm {a b j : Value} : a.join b = .ok j ↔ b.join a = .ok j := by
  rw [join_eq_ok_iff, join_eq_ok_iff]
  exact forall_congr' fun c => by rw [and_comm]

/-- A join with a join is the join of all three. -/
theorem join_join_eq_ok_iff {a b c d : Value} :
    (b.join c >>= fun j => a.join j) = .ok d ↔ ∀ u, d ≤ u ↔ a ≤ u ∧ b ≤ u ∧ c ≤ u := by
  rw [bind_eq_ok]
  constructor
  · rintro ⟨j, hj, hd⟩ u
    rw [join_le_iff hd, join_le_iff hj]
  · intro h
    obtain ⟨-, hb, hc⟩ := (h d).1 (le_refl d)
    have hshape : b.SameShape c := (sameShape_of_le hb).trans (sameShape_of_le hc).symm
    obtain ⟨j, hj⟩ : ∃ j, b.join c = .ok j := exists_combine_iff.2 hshape
    refine ⟨j, hj, join_eq_ok_iff.2 fun u => ?_⟩
    rw [h u, join_le_iff hj]

theorem join_assoc {a b c d : Value} :
    (a.join b >>= fun j => j.join c) = .ok d ↔ (b.join c >>= fun j => a.join j) = .ok d := by
  have hflip : (a.join b >>= fun j => j.join c) = .ok d ↔
      (a.join b >>= fun j => c.join j) = .ok d := by
    rw [bind_eq_ok, bind_eq_ok]
    exact exists_congr fun j => and_congr_right fun _ => join_comm
  rw [hflip, join_join_eq_ok_iff, join_join_eq_ok_iff]
  refine forall_congr' fun u => ?_
  rw [and_comm, and_assoc]

theorem le_iff_join_eq {a b : Value} : a ≤ b ↔ a.join b = .ok b := by
  rw [join_eq_ok_iff]
  constructor
  · intro hab c
    exact ⟨fun hbc => ⟨le_trans hab hbc, hbc⟩, fun h => h.2⟩
  · intro h
    exact ((h b).1 (le_refl b)).1

/-- **Values are a join-semilattice with a greatest value in every shape.**

* A join is refused exactly for values that differ in shape, whichever comes first.
* Where it is defined it is commutative, associative and idempotent, and both ways of joining three
  values are defined for the same triples.
* It is the least upper bound for the order, which is reflexive, antisymmetric and transitive.
* A value lies below another exactly if their join is the other one, although the order looks at no
  pair of items after the first that is not in order.
* `top` keeps the shape, is its own `top`, and lies above all values of the shape. -/
theorem join_semilattice (a b c : Value) :
    (((∃ e, a.join b = .error e) ↔ ¬a.SameShape b) ∧
      ((∃ e, b.join a = .error e) ↔ ¬a.SameShape b)) ∧
    ((a.join b).toOption = (b.join a).toOption ∧
      (a.join b >>= fun j => j.join c).toOption = (b.join c >>= fun j => a.join j).toOption ∧
      a.join a = .ok a) ∧
    (∀ j, a.join b = .ok j → a.leq j = .ok true ∧ b.leq j = .ok true ∧
      (a.leq c = .ok true → b.leq c = .ok true → j.leq c = .ok true)) ∧
    (a.leq a = .ok true ∧
      (a.leq b = .ok true → b.leq a = .ok true → a = b) ∧
      (a.leq b = .ok true → b.leq c = .ok true → a.leq c = .ok true)) ∧
    (a.leq b = .ok true ↔ a.join b = .ok b) ∧
    (∀ as bs cs ds, List.Forall₂ (fun v w => v.leq w = .ok true) as bs → a.leq b = .ok false →
      cs.length = ds.length →
      leq (.tuple (as ++ a :: cs)) (.tuple (bs ++ b :: ds)) = .ok false) ∧
    (a.top.SameShape a ∧ a.top.top = a.top ∧ (b.SameShape a → b.leq a.top = .ok true)) := by
  refine ⟨⟨combine_refused_iff, ?_⟩, ⟨?_, ?_, join_self a⟩, ?_,
    ⟨leq_self a, leq_antisymm, leq_trans⟩, le_iff_join_eq, fun _ _ _ _ => leq_tuple_of_false,
    ?_, top_top a, ?_⟩
  · exact combine_refused_iff.trans (not_congr ⟨SameShape.symm, SameShape.symm⟩)
  · exact toOption_eq_iff.2 fun _ => join_comm
  · exact toOption_eq_iff.2 fun _ => join_assoc
  · intro j hj
    obtain ⟨haj, hbj⟩ := (join_le_iff hj).1 (le_refl j)
    exact ⟨haj, hbj, fun hac hbc => (join_le_iff hj).2 ⟨hac, hbc⟩⟩
  · exact sameShape_iff_top_eq.2 (top_top a)
  · intro h
    rw [← sameShape_iff_top_eq.1 h]
    exact le_top b

/-- A truth value beside a tuple with a slot that holds no value. -/
def nestedPair (t : Truth) (i : Interval) : Value :=
  .tuple [.bool t, .tuple [.int i, .uninit]]

/-- Two values that are not in order and have a join.  With items of different variants put after
them, the order still answers, and the join is refused. -/
theorem join_semilattice_nestedPair :
    (nestedPair .true (.between 0 3)).join (nestedPair .false ⟨.fin 2, .posInf⟩) =
        .ok (nestedPair .top ⟨.fin 0, .posInf⟩) ∧
      (nestedPair .top ⟨.fin 0, .posInf⟩).leq (nestedPair .true (.between 0 3)).top = .ok true ∧
      leq (.tuple [nestedPair .true (.between 0 3), .uninit])
        (.tuple [nestedPair .false ⟨.fin 2, .posInf⟩, .bool .top]) = .ok false ∧
      ∃ e, join (.tuple [nestedPair .true (.between 0 3), .uninit])
        (.tuple [nestedPair .false ⟨.fin 2, .posInf⟩, .bool .top]) = .error e := by
  obtain ⟨-, -, hjoin, -, -, hstop, -⟩ := join_semilattice (nestedPair .true (.between 0 3))
    (nestedPair .false ⟨.fin 2, .posInf⟩) (nestedPair .true (.between 0 3)).top
  obtain ⟨⟨hrefused, -⟩, -⟩ := join_semilattice (.tuple [nestedPair .true (.between 0 3), .uninit])
    (.tuple [nestedPair .false ⟨.fin 2, .posInf⟩, .bool .top]) .uninit
  refine ⟨rfl, (hjoin _ rfl).2.2 rfl rfl, hstop [] [] [.uninit] [.bool .top] .nil rfl rfl,
    hrefused.2 ?_⟩
  intro hshape
  have hvariant := (hshape [.field 1] .uninit (.bool .top) rfl rfl).1
  cases hvariant

end Value

end MirRange
