import Mathlib.Data.Set.Insert
import MirRange.Proofs.Lattice
import MirRange.Proofs.Monotonicity
import MirRange.Proofs.Soundness

/-!
# The operators are exact

On values that stand for something at every leaf, an operator answers neither too little nor too
much: the data that its result stands for are exactly the results on the data of its operands.  The
first half is soundness.  The second half needs, for everything that an answer allows, two operands
that lead to it, and these are found from the bounds of the intervals.

* `Interval.exists_common`, `Interval.exists_le`, `Interval.exists_lt`: integers of two intervals
  that are equal or in order, from bounds that are.
* `Interval.contains_add_iff`, `Interval.equals_admits_iff`, `Interval.lessThan_admits_iff`: the
  operations on intervals.
* `BinOp.results`: the results of an operator on the data of two values.
* `BinOp.apply_exact`: exactness, and where an operator is refused.
-/

namespace MirRange

/-! ### Integers between bounds -/

namespace Bound

theorem exists_fin_between {a b : Bound} (h : le a b = true) (ha : a ≠ .posInf)
    (hb : b ≠ .negInf) : ∃ n, le a (.fin n) = true ∧ le (.fin n) b = true := by
  cases a with
  | negInf =>
    cases b with
    | negInf => exact absurd rfl hb
    | fin n => exact ⟨n, negInf_le _, le_refl _⟩
    | posInf => exact ⟨0, negInf_le _, le_posInf _⟩
  | fin m => exact ⟨m, le_refl _, h⟩
  | posInf => exact absurd rfl ha

/-- Between different bounds there are two neighbouring integers. -/
theorem exists_fin_succ_between {a b : Bound} (h : lt a b = true) :
    ∃ n, le a (.fin n) = true ∧ le (.fin (n + 1)) b = true := by
  cases a with
  | negInf =>
    cases b with
    | negInf => cases h
    | fin n => exact ⟨n - 1, negInf_le _, by rw [fin_le_fin]; omega⟩
    | posInf => exact ⟨0, negInf_le _, le_posInf _⟩
  | fin m =>
    cases b with
    | negInf => cases h
    | fin n =>
      have hmn : m < n := by simpa [lt] using h
      exact ⟨m, le_refl _, by rw [fin_le_fin]; omega⟩
    | posInf => exact ⟨m, le_refl _, le_posInf _⟩
  | posInf => cases b <;> cases h

/-- A bound seen from an integer: the bound on what is left of the integer. -/
def remaining (k : Int) : Bound → Bound
  | .negInf => .posInf
  | .fin n => .fin (k - n)
  | .posInf => .negInf

theorem remaining_le_fin (k n : Int) (a : Bound) :
    le (remaining k a) (.fin n) = le (.fin (k - n)) a := by
  cases a with
  | negInf => rfl
  | fin m =>
    rw [Bool.eq_iff_iff, remaining, fin_le_fin, fin_le_fin]
    omega
  | posInf => rfl

theorem fin_le_remaining (k n : Int) (a : Bound) :
    le (.fin n) (remaining k a) = le a (.fin (k - n)) := by
  cases a with
  | negInf => rfl
  | fin m =>
    rw [Bool.eq_iff_iff, remaining, fin_le_fin, fin_le_fin]
    omega
  | posInf => rfl

/-- Of a sum of lower bounds one can be brought to the other side. -/
theorem le_remaining_of_add_le {a b : Bound} {k : Int} (ha : a ≠ .posInf) (hb : b ≠ .posInf)
    (h : le (add a b) (.fin k) = true) : le a (remaining k b) = true := by
  cases a with
  | negInf => exact negInf_le _
  | fin m =>
    cases b with
    | negInf => rfl
    | fin n =>
      rw [add, fin_le_fin] at h
      rw [remaining, fin_le_fin]
      omega
    | posInf => exact absurd rfl hb
  | posInf => exact absurd rfl ha

/-- Of a sum of upper bounds one can be brought to the other side. -/
theorem remaining_le_of_le_add {a b : Bound} {k : Int} (ha : a ≠ .negInf) (hb : b ≠ .negInf)
    (h : le (.fin k) (add a b) = true) : le (remaining k b) a = true := by
  cases a with
  | negInf => exact absurd rfl ha
  | fin m =>
    cases b with
    | negInf => exact absurd rfl hb
    | fin n =>
      rw [add, fin_le_fin] at h
      rw [remaining, fin_le_fin]
      omega
    | posInf => rfl
  | posInf => exact le_posInf _

end Bound

/-! ### Intervals that are not empty -/

namespace Interval

/-- Some integer lies in the interval. -/
def Nonempty (i : Interval) : Prop :=
  ∃ n, i.contains n = true

variable {i j : Interval}

theorem Nonempty.lower_ne (h : i.Nonempty) : i.lower ≠ .posInf := by
  obtain ⟨n, hn⟩ := h
  intro hlower
  have hle := (contains_iff.1 hn).1
  rw [hlower, Bound.posInf_le_fin] at hle
  cases hle

theorem Nonempty.upper_ne (h : i.Nonempty) : i.upper ≠ .negInf := by
  obtain ⟨n, hn⟩ := h
  intro hupper
  have hle := (contains_iff.1 hn).2
  rw [hupper, Bound.fin_le_negInf] at hle
  cases hle

/-- The interval has an integer at or below any that its lower bound allows. -/
theorem Nonempty.exists_contains_le (h : i.Nonempty) {k : Int}
    (hk : Bound.le i.lower (.fin k) = true) : ∃ m, i.contains m = true ∧ m ≤ k := by
  obtain ⟨n, hn⟩ := h
  by_cases hnk : n ≤ k
  · exact ⟨n, hn, hnk⟩
  · have hkn : Bound.le (.fin k) (.fin n) = true := by
      rw [Bound.fin_le_fin]
      omega
    exact ⟨k, contains_iff.2 ⟨hk, Bound.le_trans hkn (contains_iff.1 hn).2⟩, Int.le_refl k⟩

/-- The interval has an integer at or above any that its upper bound allows. -/
theorem Nonempty.exists_le_contains (h : i.Nonempty) {k : Int}
    (hk : Bound.le (.fin k) i.upper = true) : ∃ m, i.contains m = true ∧ k ≤ m := by
  obtain ⟨n, hn⟩ := h
  by_cases hkn : k ≤ n
  · exact ⟨n, hn, hkn⟩
  · have hnk : Bound.le (.fin n) (.fin k) = true := by
      rw [Bound.fin_le_fin]
      omega
    exact ⟨k, contains_iff.2 ⟨Bound.le_trans (contains_iff.1 hn).1 hnk, hk⟩, Int.le_refl k⟩

theorem exists_le (hi : i.Nonempty) (hj : j.Nonempty) (h : Bound.le i.lower j.upper = true) :
    ∃ m n, i.contains m = true ∧ j.contains n = true ∧ m ≤ n := by
  obtain ⟨k, hlower, hupper⟩ := Bound.exists_fin_between h hi.lower_ne hj.upper_ne
  obtain ⟨m, hm, hmk⟩ := hi.exists_contains_le hlower
  obtain ⟨n, hn, hkn⟩ := hj.exists_le_contains hupper
  exact ⟨m, n, hm, hn, Int.le_trans hmk hkn⟩

theorem exists_lt (hi : i.Nonempty) (hj : j.Nonempty) (h : Bound.lt i.lower j.upper = true) :
    ∃ m n, i.contains m = true ∧ j.contains n = true ∧ m < n := by
  obtain ⟨k, hlower, hupper⟩ := Bound.exists_fin_succ_between h
  obtain ⟨m, hm, hmk⟩ := hi.exists_contains_le hlower
  obtain ⟨n, hn, hkn⟩ := hj.exists_le_contains hupper
  exact ⟨m, n, hm, hn, by omega⟩

/-- Intervals that do not pass each other by have an integer in common. -/
theorem exists_common (hi : i.Nonempty) (hj : j.Nonempty)
    (hij : Bound.le i.lower j.upper = true) (hji : Bound.le j.lower i.upper = true) :
    ∃ n, i.contains n = true ∧ j.contains n = true := by
  obtain ⟨m, hm⟩ := id hi
  obtain ⟨n, hn⟩ := id hj
  have hii := Bound.le_trans (contains_iff.1 hm).1 (contains_iff.1 hm).2
  have hjj := Bound.le_trans (contains_iff.1 hn).1 (contains_iff.1 hn).2
  -- the common integers are those between the greater lower and the lesser upper bound
  have hle : Bound.le (Bound.max i.lower j.lower) (Bound.min i.upper j.upper) = true := by
    rw [Bound.max_le_iff, Bound.le_min_iff, Bound.le_min_iff]
    exact ⟨⟨hii, hij⟩, hji, hjj⟩
  have hmax : Bound.max i.lower j.lower ≠ .posInf := by
    unfold Bound.max
    split
    · exact hj.lower_ne
    · exact hi.lower_ne
  have hmin : Bound.min i.upper j.upper ≠ .negInf := by
    unfold Bound.min
    split
    · exact hj.upper_ne
    · exact hi.upper_ne
  obtain ⟨k, hlower, hupper⟩ := Bound.exists_fin_between hle hmax hmin
  rw [Bound.max_le_iff] at hlower
  rw [Bound.le_min_iff] at hupper
  exact ⟨k, contains_iff.2 ⟨hlower.1, hupper.1⟩, contains_iff.2 ⟨hlower.2, hupper.2⟩⟩

/-- An interval with one integer is the interval of that integer. -/
theorem eq_single_of_unique {n : Int} (hn : i.contains n = true)
    (hunique : ∀ m, i.contains m = true → m = n) : i = single n := by
  obtain ⟨hlower, hupper⟩ := contains_iff.1 hn
  -- a bound that is not `n` leaves room for a neighbour of `n`
  have hlower' : Bound.le (.fin n) i.lower = true := by
    by_contra hlt
    obtain ⟨k, hk, hkn⟩ := Bound.exists_fin_succ_between (Bound.lt_of_not_le hlt)
    rw [Bound.fin_le_fin] at hkn
    have hkn' : Bound.le (.fin k) (.fin n) = true := by
      rw [Bound.fin_le_fin]
      omega
    have := hunique k (contains_iff.2 ⟨hk, Bound.le_trans hkn' hupper⟩)
    omega
  have hupper' : Bound.le i.upper (.fin n) = true := by
    by_contra hlt
    obtain ⟨k, hnk, hk⟩ := Bound.exists_fin_succ_between (Bound.lt_of_not_le hlt)
    rw [Bound.fin_le_fin] at hnk
    have hnk' : Bound.le (.fin n) (.fin (k + 1)) = true := by
      rw [Bound.fin_le_fin]
      omega
    have := hunique (k + 1) (contains_iff.2 ⟨Bound.le_trans hlower hnk', hk⟩)
    omega
  calc i = ⟨i.lower, i.upper⟩ := rfl
    _ = single n := by
      rw [Bound.le_antisymm hlower hlower', Bound.le_antisymm hupper' hupper]
      rfl

/-! ### The operations on intervals -/

/-- **The sum of two intervals holds exactly the sums of their integers.** -/
theorem contains_add_iff (hi : i.Nonempty) (hj : j.Nonempty) {k : Int} :
    (i.add j).contains k = true ↔
      ∃ m n, i.contains m = true ∧ j.contains n = true ∧ m + n = k := by
  constructor
  · intro hk
    obtain ⟨hlower, hupper⟩ := contains_iff.1 hk
    -- what is left of `k` over the integers of `j` is an interval that meets `i`
    let rest : Interval := ⟨Bound.remaining k j.upper, Bound.remaining k j.lower⟩
    have hrest : ∀ n, rest.contains n = true ↔ j.contains (k - n) = true := by
      intro n
      rw [contains_iff, contains_iff, and_comm]
      show Bound.le (.fin n) (Bound.remaining k j.lower) = true ∧
        Bound.le (Bound.remaining k j.upper) (.fin n) = true ↔ _
      rw [Bound.fin_le_remaining, Bound.remaining_le_fin]
    have hrestNonempty : rest.Nonempty := by
      obtain ⟨n, hn⟩ := hj
      refine ⟨k - n, (hrest _).2 ?_⟩
      rw [show k - (k - n) = n by omega]
      exact hn
    obtain ⟨m, hm, hmrest⟩ := exists_common hi hrestNonempty
      (Bound.le_remaining_of_add_le hi.lower_ne hj.lower_ne hlower)
      (Bound.remaining_le_of_le_add hi.upper_ne hj.upper_ne hupper)
    exact ⟨m, k - m, hm, (hrest m).1 hmrest, by omega⟩
  · rintro ⟨m, n, hm, hn, rfl⟩
    exact contains_add hm hn

/-- **The comparison of two intervals answers exactly what comparing their integers can.** -/
theorem lessThan_admits_iff (hi : i.Nonempty) (hj : j.Nonempty) {x : Bool} :
    (i.lessThan j).admits x = true ↔
      ∃ m n, i.contains m = true ∧ j.contains n = true ∧ decide (m < n) = x := by
  constructor
  · intro hx
    by_cases hlt : Bound.lt i.upper j.lower = true
    · -- all integers are in order
      rw [lessThan, if_pos hlt] at hx
      obtain ⟨m, hm⟩ := hi
      obtain ⟨n, hn⟩ := hj
      obtain rfl : x = true := hx
      exact ⟨m, n, hm, hn, decide_eq_true (lt_of_contains hm hn hlt)⟩
    · have hle : Bound.le j.lower i.upper = true := Bound.le_of_not_lt hlt
      obtain ⟨n, m, hn, hm, hnm⟩ := exists_le hj hi hle
      cases x with
      | false => exact ⟨m, n, hm, hn, decide_eq_false (Int.not_lt.2 hnm)⟩
      | true =>
        have hlt' : Bound.lt i.lower j.upper = true := by
          rw [lessThan, if_neg hlt] at hx
          split at hx
          · cases hx
          · rename_i hge
            exact Bound.lt_of_not_le hge
        obtain ⟨m', n', hm', hn', hmn'⟩ := exists_lt hi hj hlt'
        exact ⟨m', n', hm', hn', decide_eq_true hmn'⟩
  · rintro ⟨m, n, hm, hn, rfl⟩
    exact lessThan_admits hm hn

/-- Two intervals have different integers, unless both are the same single integer. -/
theorem exists_ne (hi : i.Nonempty) (hj : j.Nonempty) (h : ¬(i.isSingle = true ∧ i = j)) :
    ∃ m n, i.contains m = true ∧ j.contains n = true ∧ m ≠ n := by
  obtain ⟨m, hm⟩ := id hi
  obtain ⟨n, hn⟩ := id hj
  by_contra hall
  have heq : ∀ a b, i.contains a = true → j.contains b = true → a = b := by
    intro a b ha hb
    by_contra hab
    exact hall ⟨a, b, ha, hb, hab⟩
  obtain rfl := heq m n hm hn
  have hisingle : i = single m := eq_single_of_unique hm fun a ha => heq a m ha hn
  have hjsingle : j = single m := eq_single_of_unique hn fun b hb => (heq m b hm hb).symm
  exact h ⟨isSingle_iff.2 ⟨m, hisingle⟩, hisingle.trans hjsingle.symm⟩

/-- **The equality of two intervals answers exactly what comparing their integers can.** -/
theorem equals_admits_iff (hi : i.Nonempty) (hj : j.Nonempty) {x : Bool} :
    (i.equals j).admits x = true ↔
      ∃ m n, i.contains m = true ∧ j.contains n = true ∧ (m == n) = x := by
  constructor
  · intro hx
    by_cases hdisjoint : (Bound.lt i.upper j.lower || Bound.lt j.upper i.lower) = true
    · -- no integer is in both, so any two will do
      obtain ⟨m, hm⟩ := hi
      obtain ⟨n, hn⟩ := hj
      refine ⟨m, n, hm, hn, ?_⟩
      have hmn := equals_admits hm hn
      rw [equals, if_pos hdisjoint] at hx hmn
      revert hx hmn
      cases x <;> cases m == n <;> decide
    · have hmeet : Bound.le i.lower j.upper = true ∧ Bound.le j.lower i.upper = true := by
        rw [Bool.or_eq_true, not_or] at hdisjoint
        exact ⟨Bound.le_of_not_lt hdisjoint.2, Bound.le_of_not_lt hdisjoint.1⟩
      cases x with
      | true =>
        obtain ⟨n, hn, hn'⟩ := exists_common hi hj hmeet.1 hmeet.2
        exact ⟨n, n, hn, hn', beq_self_eq_true n⟩
      | false =>
        have hdiffer : ¬(i.isSingle = true ∧ i = j) := by
          rintro ⟨hsingle, rfl⟩
          rw [equals, if_neg hdisjoint, hsingle, decide_eq_true rfl] at hx
          cases hx
        obtain ⟨m, n, hm, hn, hmn⟩ := exists_ne hi hj hdiffer
        exact ⟨m, n, hm, hn, beq_eq_false_iff_ne.2 hmn⟩
  · rintro ⟨m, n, hm, hn, rfl⟩
    exact equals_admits hm hn

end Interval

/-- **The equality of two truth values answers exactly what comparing them can.** -/
theorem Truth.equals_admits_iff {s t : Truth} (hs : s ≠ .bot) (ht : t ≠ .bot) {x : Bool} :
    (s.equals t).admits x = Bool.true ↔
      ∃ p q, s.admits p = Bool.true ∧ t.admits q = Bool.true ∧ (p == q) = x := by
  revert hs ht
  cases s <;> cases t <;> cases x <;> decide

/-! ### Values -/

namespace Value

mutual

/-- The truth values in a value. -/
def truths : Value → List Truth
  | .bool t => [t]
  | .tuple items => truthsAll items
  | _ => []

/-- The truth values in some values. -/
def truthsAll : List Value → List Truth
  | [] => []
  | v :: vs => truths v ++ truthsAll vs

end

/-- Every interval in a value holds some integer, and every truth value is possible. -/
structure Nonempty (v : Value) : Prop where
  intervals : ∀ i ∈ v.intervals, i.Nonempty
  truths : ∀ t ∈ v.truths, t ≠ .bot

/-- The data that a value stands for. -/
def data (v : Value) : Set Datum :=
  {d | v.admits d = true}

theorem mem_truthsAll {items : List Value} {t : Truth} :
    t ∈ truthsAll items ↔ ∃ v ∈ items, t ∈ v.truths := by
  induction items with
  | nil => simp [truthsAll]
  | cons v items ih => simp [truthsAll, ih]

theorem Nonempty.item {items : List Value} (h : (Value.tuple items).Nonempty) {v : Value}
    (hv : v ∈ items) : v.Nonempty :=
  ⟨fun i hi => h.intervals i (mem_intervalsAll.2 ⟨v, hv, hi⟩),
    fun t ht => h.truths t (mem_truthsAll.2 ⟨v, hv, ht⟩)⟩

theorem Nonempty.bool {t : Truth} (h : (Value.bool t).Nonempty) : t ≠ .bot :=
  h.truths t (List.mem_singleton.2 rfl)

theorem Nonempty.int {i : Interval} (h : (Value.int i).Nonempty) : i.Nonempty :=
  h.intervals i (List.mem_singleton.2 rfl)

theorem Nonempty.uint {i : Interval} (h : (Value.uint i).Nonempty) : i.Nonempty :=
  h.intervals i (List.mem_singleton.2 rfl)

/-- A value stands for something if its leaves do. -/
theorem Nonempty.exists_admits {v : Value} (h : v.Nonempty) : ∃ d, v.admits d = true := by
  have hint : ∀ i : Interval, i.Nonempty → ∃ d : Datum, ∃ n, d = .int n ∧ i.contains n = true :=
    fun i ⟨n, hn⟩ => ⟨.int n, n, rfl, hn⟩
  induction v using nestedInduction with
  | bool t =>
    have ht := h.bool
    cases t with
    | top => exact ⟨.bool true, rfl⟩
    | true => exact ⟨.bool true, rfl⟩
    | false => exact ⟨.bool false, rfl⟩
    | bot => exact absurd rfl ht
  | int i =>
    obtain ⟨d, hd⟩ := hint i h.int
    exact ⟨d, int_admits_iff.2 hd⟩
  | uint i =>
    obtain ⟨d, hd⟩ := hint i h.uint
    exact ⟨d, uint_admits_iff.2 hd⟩
  | tuple items ih =>
    have hself : List.Forall₂ Eq items items := List.forall₂_same.2 fun _ _ => rfl
    have hex : ∀ v ∈ items, ∀ w, v = w → ∃ d, w.admits d = true ∧ True := by
      rintro v hv _ rfl
      obtain ⟨d, hd⟩ := ih v hv (h.item hv)
      exact ⟨d, hd, trivial⟩
    obtain ⟨ds, hds, -⟩ := forall₂_choose hself hex
    exact ⟨.tuple ds, admits_tuple_iff.2 ⟨ds, rfl, hds⟩⟩
  | uninit => exact ⟨.bool true, uninit_admits _⟩

/-! ### Values of truth values and of intervals -/

theorem data_bool (t : Truth) :
    (Value.bool t).data = {d | ∃ x, d = .bool x ∧ t.admits x = true} := by
  ext d
  exact bool_admits_iff

theorem data_true : (Value.bool .true).data = {.bool true} := by
  rw [data_bool]
  ext d
  simp [Truth.admits]

theorem data_false : (Value.bool .false).data = {.bool false} := by
  rw [data_bool]
  ext d
  simp [Truth.admits]

theorem data_top : (Value.bool .top).data = {.bool true, .bool false} := by
  rw [data_bool]
  ext d
  simp [Truth.admits, or_comm]

/-- A value stands for the integers of an interval. -/
def IsIntegers (v : Value) (i : Interval) : Prop :=
  ∀ d : Datum, v.admits d = true ↔ ∃ n, d = .int n ∧ i.contains n = true

theorem int_isIntegers (i : Interval) : (Value.int i).IsIntegers i :=
  fun _ => int_admits_iff

theorem uint_isIntegers (i : Interval) : (Value.uint i).IsIntegers i :=
  fun _ => uint_admits_iff

end Value

/-! ### Operators -/

namespace BinOp

/-- The results of an operator on the data of two values, in exact arithmetic. -/
def results (op : BinOp) (ty : Ty) (l r : Value) : Set Datum :=
  {d | ∃ x y, l.admits x = true ∧ r.admits y = true ∧ op.datum? .exact ty x y = some d}

/-- The variants of operands on which an operator is defined. -/
def supports : BinOp → Variant → Variant → Bool
  | .add, .int, .int | .add, .uint, .uint => true
  | .eq, .bool, .bool | .eq, .int, .int | .eq, .uint, .uint => true
  | .lt, .int, .int | .lt, .uint, .uint => true
  | _, _, _ => false

section

variable {ty : Ty} {l r v : Value} {i j : Interval}

theorem results_add (hl : l.IsIntegers i) (hr : r.IsIntegers j) (hv : v.IsIntegers (i.add j))
    (hi : i.Nonempty) (hj : j.Nonempty) : v.data = add.results ty l r := by
  ext d
  show v.admits d = true ↔ _
  rw [hv d]
  constructor
  · rintro ⟨k, rfl, hk⟩
    obtain ⟨m, n, hm, hn, hsum⟩ := (Interval.contains_add_iff hi hj).1 hk
    have hresult : add.datum? .exact ty (.int m) (.int n) = some (.int k) := by
      rw [← hsum]
      rfl
    exact ⟨.int m, .int n, (hl _).2 ⟨m, rfl, hm⟩, (hr _).2 ⟨n, rfl, hn⟩, hresult⟩
  · rintro ⟨x, y, hx, hy, hd⟩
    obtain ⟨m, rfl, hm⟩ := (hl x).1 hx
    obtain ⟨n, rfl, hn⟩ := (hr y).1 hy
    exact ⟨m + n, (Option.some.inj hd).symm, Interval.contains_add hm hn⟩

/-- An operator that compares integers, if its answers on two intervals are exact. -/
theorem results_compare {op : BinOp} {holds : Int → Int → Bool} {t : Truth}
    (hop : ∀ m n, op.datum? .exact ty (.int m) (.int n) = some (.bool (holds m n)))
    (hl : l.IsIntegers i) (hr : r.IsIntegers j)
    (ht : ∀ x, t.admits x = true ↔
      ∃ m n, i.contains m = true ∧ j.contains n = true ∧ holds m n = x) :
    (Value.bool t).data = op.results ty l r := by
  ext d
  show (Value.bool t).admits d = true ↔ _
  rw [Value.bool_admits_iff]
  constructor
  · rintro ⟨x, rfl, hx⟩
    obtain ⟨m, n, hm, hn, hholds⟩ := (ht x).1 hx
    have hresult : op.datum? .exact ty (.int m) (.int n) = some (.bool x) := by
      rw [hop, hholds]
    exact ⟨.int m, .int n, (hl _).2 ⟨m, rfl, hm⟩, (hr _).2 ⟨n, rfl, hn⟩, hresult⟩
  · rintro ⟨x, y, hx, hy, hd⟩
    obtain ⟨m, rfl, hm⟩ := (hl x).1 hx
    obtain ⟨n, rfl, hn⟩ := (hr y).1 hy
    rw [hop] at hd
    exact ⟨holds m n, (Option.some.inj hd).symm, (ht _).2 ⟨m, n, hm, hn, rfl⟩⟩

theorem results_eqBool {s t : Truth} (hs : s ≠ .bot) (ht : t ≠ .bot) :
    (Value.bool (s.equals t)).data = eq.results ty (.bool s) (.bool t) := by
  ext d
  show (Value.bool (s.equals t)).admits d = true ↔ _
  rw [Value.bool_admits_iff]
  constructor
  · rintro ⟨x, rfl, hx⟩
    obtain ⟨p, q, hp, hq, hpq⟩ := (Truth.equals_admits_iff hs ht).1 hx
    have hresult : eq.datum? .exact ty (.bool p) (.bool q) = some (.bool x) := by
      rw [← hpq]
      rfl
    exact ⟨.bool p, .bool q, hp, hq, hresult⟩
  · rintro ⟨x, y, hx, hy, hd⟩
    obtain ⟨p, rfl, hp⟩ := Value.bool_admits_iff.1 hx
    obtain ⟨q, rfl, hq⟩ := Value.bool_admits_iff.1 hy
    exact ⟨p == q, (Option.some.inj hd).symm, Truth.equals_admits hp hq⟩

/-- **What an operator answers stands for its results, and for nothing else.** -/
theorem data_eq_results {op : BinOp} (hl : l.Nonempty) (hr : r.Nonempty)
    (h : op.apply l r = .ok v) : v.data = op.results ty l r := by
  cases applies_of_apply h with
  | addInt i j =>
    exact results_add (Value.int_isIntegers i) (Value.int_isIntegers j) (Value.int_isIntegers _)
      hl.int hr.int
  | addUint i j =>
    exact results_add (Value.uint_isIntegers i) (Value.uint_isIntegers j) (Value.uint_isIntegers _)
      hl.uint hr.uint
  | eqBool s t => exact results_eqBool hl.bool hr.bool
  | eqInt i j =>
    exact results_compare (fun _ _ => rfl) (Value.int_isIntegers i) (Value.int_isIntegers j)
      fun _ => Interval.equals_admits_iff hl.int hr.int
  | eqUint i j =>
    exact results_compare (fun _ _ => rfl) (Value.uint_isIntegers i) (Value.uint_isIntegers j)
      fun _ => Interval.equals_admits_iff hl.uint hr.uint
  | ltInt i j =>
    exact results_compare (fun _ _ => rfl) (Value.int_isIntegers i) (Value.int_isIntegers j)
      fun _ => Interval.lessThan_admits_iff hl.int hr.int
  | ltUint i j =>
    exact results_compare (fun _ _ => rfl) (Value.uint_isIntegers i) (Value.uint_isIntegers j)
      fun _ => Interval.lessThan_admits_iff hl.uint hr.uint

/-- An operator that applies has a result on all data of its operands. -/
theorem exists_result {op : BinOp} (h : op.apply l r = .ok v) (ty : Ty) {x y : Datum}
    (hx : x ∈ l.data) (hy : y ∈ r.data) : ∃ d, op.datum? .exact ty x y = some d := by
  obtain ⟨d, hd, -, -⟩ := apply_admits (M := .exact) ty h hx hy fun _ _ _ _ _ => ⟨rfl, rfl⟩
  exact ⟨d, hd⟩

/-- A comparison answers by the outcomes that there are. -/
theorem truth_of_results {op : BinOp} {t : Truth} (hl : l.Nonempty) (hr : r.Nonempty)
    (h : op.apply l r = .ok (.bool t)) :
    t = .true ∧ op.results ty l r = {.bool true} ∨
      t = .false ∧ op.results ty l r = {.bool false} ∨
      t = .top ∧ op.results ty l r = {.bool true, .bool false} := by
  have hdata : (Value.bool t).data = op.results ty l r := data_eq_results hl hr h
  rw [← hdata]
  cases t with
  | true => exact .inl ⟨rfl, Value.data_true⟩
  | false => exact .inr (.inl ⟨rfl, Value.data_false⟩)
  | top => exact .inr (.inr ⟨rfl, Value.data_top⟩)
  | bot =>
    -- some two data have a result, and it would have to be none
    obtain ⟨x, hx⟩ := hl.exists_admits
    obtain ⟨y, hy⟩ := hr.exists_admits
    obtain ⟨d, hd⟩ := exists_result h ty hx hy
    have hmem : d ∈ (Value.bool .bot).data := by
      rw [hdata]
      exact ⟨x, y, hx, hy, hd⟩
    obtain ⟨b, -, hb⟩ := Value.bool_admits_iff.1 hmem
    cases hb

/-- A sum stands for the sums of the integers of its operands. -/
theorem results_add_eq (h : add.apply l r = .ok v) :
    add.results ty l r =
      {d | ∃ m n : Int, Datum.int m ∈ l.data ∧ Datum.int n ∈ r.data ∧ d = .int (m + n)} := by
  have hintegers : ∃ i j, l.IsIntegers i ∧ r.IsIntegers j := by
    cases applies_of_apply h with
    | addInt i j => exact ⟨i, j, Value.int_isIntegers i, Value.int_isIntegers j⟩
    | addUint i j => exact ⟨i, j, Value.uint_isIntegers i, Value.uint_isIntegers j⟩
  obtain ⟨i, j, hi, hj⟩ := hintegers
  ext d
  constructor
  · rintro ⟨x, y, hx, hy, hd⟩
    obtain ⟨m, rfl, -⟩ := (hi x).1 hx
    obtain ⟨n, rfl, -⟩ := (hj y).1 hy
    exact ⟨m, n, hx, hy, (Option.some.inj hd).symm⟩
  · rintro ⟨m, n, hm, hn, rfl⟩
    exact ⟨.int m, .int n, hm, hn, rfl⟩

/-- An operator applies exactly to the variants that it supports, and is refused on all others. -/
theorem apply_cases (op : BinOp) (l r : Value) :
    (op.supports l.variant r.variant = true ∧ ∃ v, op.apply l r = .ok v) ∨
      (op.supports l.variant r.variant = false ∧
        op.apply l r = .error (.unsupportedOperator op l.variant r.variant)) := by
  cases op <;> cases l <;> cases r <;> first
    | exact .inl ⟨rfl, _, rfl⟩
    | exact .inr ⟨rfl, rfl⟩

/-- A comparison gives a truth value. -/
theorem exists_truth_of_compare {op : BinOp} (h : op.apply l r = .ok v)
    (hop : op = .eq ∨ op = .lt) : ∃ t, v = .bool t := by
  cases applies_of_apply h with
  | addInt i j => rcases hop with hop | hop <;> cases hop
  | addUint i j => rcases hop with hop | hop <;> cases hop
  | _ => exact ⟨_, rfl⟩

end

/-- **The operators are exact.**  Let every interval of two operands hold some integer and every
truth value be possible.  Whenever an operator applies to them,

* the data that its answer stands for are exactly its results on the data of the operands, and any
  two data have a result;
* for an addition these are the exact sums, whatever the bounds;
* a comparison answers true, false or both by the outcomes that there are.

On any operands, an operator applies to the variants that it supports and is refused as not
supported on all others. -/
theorem apply_exact (op : BinOp) (l r : Value) :
    (l.Nonempty → r.Nonempty → ∀ v, op.apply l r = .ok v → ∀ ty,
      v.data = op.results ty l r ∧
      (∀ x ∈ l.data, ∀ y ∈ r.data, ∃ d, op.datum? .exact ty x y = some d) ∧
      (op = .add → v.data =
        {d | ∃ m n : Int, Datum.int m ∈ l.data ∧ Datum.int n ∈ r.data ∧ d = .int (m + n)}) ∧
      (op = .eq ∨ op = .lt → ∃ t, v = .bool t ∧
        (t = .true ∧ op.results ty l r = {.bool true} ∨
          t = .false ∧ op.results ty l r = {.bool false} ∨
          t = .top ∧ op.results ty l r = {.bool true, .bool false}))) ∧
    (op.supports l.variant r.variant = true → ∃ v, op.apply l r = .ok v) ∧
    (op.supports l.variant r.variant = false →
      op.apply l r = .error (.unsupportedOperator op l.variant r.variant) ∧
        (Fault.unsupportedOperator op l.variant r.variant).kind = .notImplemented) := by
  refine ⟨?_, ?_, ?_⟩
  · intro hl hr v h ty
    have hdata : v.data = op.results ty l r := data_eq_results hl hr h
    refine ⟨hdata, fun x hx y hy => exists_result h ty hx hy, ?_, ?_⟩
    · rintro rfl
      rw [hdata, results_add_eq h]
    · intro hop
      obtain ⟨t, rfl⟩ := exists_truth_of_compare h hop
      exact ⟨t, rfl, truth_of_results hl hr h⟩
  · intro hsupports
    rcases apply_cases op l r with ⟨-, h⟩ | ⟨hno, -⟩
    · exact h
    · rw [hsupports] at hno
      cases hno
  · intro hno
    rcases apply_cases op l r with ⟨hsupports, -⟩ | ⟨-, h⟩
    · rw [hno] at hsupports
      cases hsupports
    · exact ⟨h, rfl⟩

/-- The integers from 0 to 5, and those from 5 on: their bounds touch, so both outcomes of a
comparison occur, and a sum has no upper bound. -/
theorem apply_exact_touching :
    (Value.int (.between 0 5)).Nonempty ∧ (Value.int ⟨.fin 5, .posInf⟩).Nonempty ∧
      lt.results (.int 8) (.int (.between 0 5)) (.int ⟨.fin 5, .posInf⟩) =
        {.bool true, .bool false} ∧
      (Value.int ⟨.fin 5, .posInf⟩).data =
        {d | ∃ m n : Int, Datum.int m ∈ (Value.int (.between 0 5)).data ∧
          Datum.int n ∈ (Value.int ⟨.fin 5, .posInf⟩).data ∧ d = .int (m + n)} ∧
      lt.apply (.bool .top) (.bool .top) = .error (.unsupportedOperator .lt .bool .bool) := by
  have hfive : ∀ i : Interval, i.contains 5 = true → (Value.int i).Nonempty := by
    intro i hi
    refine ⟨?_, nofun⟩
    intro k hk
    obtain rfl := List.mem_singleton.1 hk
    exact ⟨5, hi⟩
  have hl := hfive (.between 0 5) rfl
  have hr := hfive ⟨.fin 5, .posInf⟩ rfl
  obtain ⟨-, -, -, hlt⟩ := (apply_exact .lt _ _).1 hl hr _ rfl (.int 8)
  obtain ⟨t, ht, hcases⟩ := hlt (.inr rfl)
  obtain rfl : Truth.top = t := Value.bool.inj ht
  refine ⟨hl, hr, ?_, ?_, ?_⟩
  · rcases hcases with ⟨hno, -⟩ | ⟨hno, -⟩ | ⟨-, hboth⟩
    · cases hno
    · cases hno
    · exact hboth
  · exact ((apply_exact .add _ _).1 hl hr _ rfl (.int 8)).2.2.1 rfl
  · exact ((apply_exact .lt (.bool .top) (.bool .top)).2.2 rfl).1

end BinOp

end MirRange
