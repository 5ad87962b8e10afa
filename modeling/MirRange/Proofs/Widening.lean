import Mathlib.Data.Set.Card
import Mathlib.Data.Set.Finite.Lattice
import Mathlib.Order.Interval.Finset.Nat
import MirRange.Proofs.Lattice

/-!
# Widening converges

Widening a value by others, one after the other, climbs in the order and comes to rest, whatever the
others are.  Each truth value and each interval can change twice at most, so the number of changes
is bounded by the shape alone.

* `Value.total`: a sum over the truth values and intervals of a value; `Value.leafCount` counts
  them, `Value.room` says how often they can still change.
* `Value.room_widen`: what one step of widening does to the room that is left.
* `Value.widened`: the values that a sequence leads through.
* `encard_drops_le`: how often a sequence of numbers that never grows can drop.
* `Value.widening_converges`: what a whole sequence of steps does.
-/

namespace MirRange

/-! ### Truth values and intervals -/

namespace Truth

/-- How often widening can still change a truth value: from `bot` to one of the two, and from there
to `top`. -/
def room : Truth → Nat
  | .top => 0
  | .true => 1
  | .false => 1
  | .bot => 2

theorem widen_eq_join (s t : Truth) : s.widen t = s.join t := by
  cases s <;> cases t <;> rfl

theorem join_eq_left_iff {s t : Truth} : s.join t = s ↔ t.leq s = Bool.true := by
  cases s <;> cases t <;> decide

theorem join_join_left (s t : Truth) : s.join (s.join t) = s.join t := by
  cases s <;> cases t <;> rfl

theorem room_le (t : Truth) : t.room ≤ 2 := by
  cases t <;> decide

theorem room_join (s t : Truth) : s.join t = s ∨ (s.join t).room < s.room := by
  cases s <;> cases t <;> decide

end Truth

namespace Bound

theorem lt_irrefl (a : Bound) : lt a a = false := by
  rw [lt_eq_not_le, le_refl]
  rfl

theorem ne_negInf_of_lt {a b : Bound} (h : lt a b = true) : b ≠ .negInf := by
  rintro rfl
  exact not_lt_of_le (negInf_le a) h

theorem ne_posInf_of_lt {a b : Bound} (h : lt a b = true) : a ≠ .posInf := by
  rintro rfl
  exact not_lt_of_le (le_posInf b) h

/-- The lesser of two bounds is below the first exactly if the second is. -/
theorem lt_min_left (a b : Bound) : lt (min a b) a = lt b a := by
  unfold min
  split
  · rfl
  · rename_i h
    rw [lt_irrefl, Bool.eq_false_iff.2 h]

/-- The greater of two bounds is above the first exactly if the second is. -/
theorem lt_max_left (a b : Bound) : lt a (max a b) = lt a b := by
  unfold max
  split
  · rfl
  · rename_i h
    rw [lt_irrefl, Bool.eq_false_iff.2 h]

end Bound

namespace Interval

/-- How often widening can still change an interval: each bound once, unless it is infinite. -/
def room (i : Interval) : Nat :=
  (if i.lower = .negInf then 0 else 1) + if i.upper = .posInf then 0 else 1

theorem room_le (i : Interval) : i.room ≤ 2 := by
  unfold room
  split <;> split <;> omega

theorem leq_widen_left (i j : Interval) : i.leq (i.widen j) = true := by
  rw [leq_iff, widen]
  constructor
  · dsimp only
    split
    · exact Bound.negInf_le _
    · exact Bound.le_refl _
  · dsimp only
    split
    · exact Bound.le_posInf _
    · exact Bound.le_refl _

theorem leq_widen_right (i j : Interval) : j.leq (i.widen j) = true := by
  rw [leq_iff, widen]
  constructor
  · dsimp only
    split
    · exact Bound.negInf_le _
    · exact Bound.le_of_not_lt ‹_›
  · dsimp only
    split
    · exact Bound.le_posInf _
    · exact Bound.le_of_not_lt ‹_›

theorem widen_eq_left_iff {i j : Interval} : i.widen j = i ↔ j.leq i = true := by
  constructor
  · intro h
    have hj := leq_widen_right i j
    rwa [h] at hj
  · intro h
    obtain ⟨hlower, hupper⟩ := leq_iff.1 h
    rw [widen, if_neg (Bound.not_lt_of_le hlower), if_neg (Bound.not_lt_of_le hupper)]

/-- Widening by a join with the interval itself is widening by the other interval. -/
theorem widen_join (i j : Interval) : i.widen (i.join j) = i.widen j := by
  rw [widen, join, Bound.lt_min_left, Bound.lt_max_left, widen]

/-- A lower bound stays, or jumps to infinity from where it has not been. -/
theorem widen_lower (i j : Interval) :
    (i.widen j).lower = i.lower ∨ (i.widen j).lower = .negInf ∧ i.lower ≠ .negInf := by
  by_cases h : Bound.lt j.lower i.lower = true
  · exact .inr ⟨if_pos h, Bound.ne_negInf_of_lt h⟩
  · exact .inl (if_neg h)

/-- An upper bound stays, or jumps to infinity from where it has not been. -/
theorem widen_upper (i j : Interval) :
    (i.widen j).upper = i.upper ∨ (i.widen j).upper = .posInf ∧ i.upper ≠ .posInf := by
  by_cases h : Bound.lt i.upper j.upper = true
  · exact .inr ⟨if_pos h, Bound.ne_posInf_of_lt h⟩
  · exact .inl (if_neg h)

theorem room_widen (i j : Interval) : i.widen j = i ∨ (i.widen j).room < i.room := by
  rcases i.widen_lower j with hlower | ⟨hlower, hne⟩
  · rcases i.widen_upper j with hupper | ⟨hupper, hne⟩
    · left
      calc i.widen j = ⟨(i.widen j).lower, (i.widen j).upper⟩ := rfl
        _ = i := by rw [hlower, hupper]
    · right
      rw [room, room, hlower, hupper, if_neg hne]
      exact Nat.lt_succ_self _
  · right
    rw [room, room, hlower, if_neg hne, if_pos rfl]
    rcases i.widen_upper j with hupper | ⟨hupper, -⟩
    · rw [hupper]
      omega
    · rw [hupper, if_pos rfl]
      omega

end Interval

/-! ### Sums over leaves -/

namespace Value

mutual

/-- The sum of two measures over the truth values and intervals of a value. -/
def total (onTruth : Truth → Nat) (onInterval : Interval → Nat) : Value → Nat
  | .bool t => onTruth t
  | .int i => onInterval i
  | .uint i => onInterval i
  | .tuple items => totals onTruth onInterval items
  | .uninit => 0

/-- The sum over the values of a list. -/
def totals (onTruth : Truth → Nat) (onInterval : Interval → Nat) : List Value → Nat
  | [] => 0
  | v :: vs => total onTruth onInterval v + totals onTruth onInterval vs

end

/-- The number of truth values and intervals of a value. -/
def leafCount (v : Value) : Nat :=
  v.total (fun _ => 1) fun _ => 1

/-- How often widening can still change a value. -/
def room (v : Value) : Nat :=
  v.total Truth.room Interval.room

theorem room_le (v : Value) : v.room ≤ 2 * v.leafCount := by
  unfold room leafCount
  induction v using nestedInduction with
  | bool t => exact t.room_le
  | int i => exact i.room_le
  | uint i => exact i.room_le
  | tuple items ih =>
    rw [total, total]
    induction items with
    | nil => exact Nat.le_refl 0
    | cons v items ihs =>
      have hv := ih v List.mem_cons_self
      have hitems := ihs fun w hw => ih w (List.mem_cons_of_mem _ hw)
      rw [totals, totals]
      omega
  | uninit => exact Nat.le_refl 0

/-! ### One step -/

section

variable {a b w : Value}

/-- Widening leads above both values. -/
theorem le_widen (h : a.widen b = .ok w) : a ≤ w ∧ b ≤ w := by
  refine combineInduction (P := fun a b w => a ≤ w ∧ b ≤ w) ?_ ?_ ?_ ?_ ?_ h
  · intro s t
    rw [Truth.widen_eq_join]
    obtain ⟨hs, ht⟩ := Truth.join_leq_iff.1 (Truth.leq_refl (s.join t))
    exact ⟨congrArg Except.ok hs, congrArg Except.ok ht⟩
  · intro i j
    exact ⟨congrArg Except.ok (i.leq_widen_left j), congrArg Except.ok (i.leq_widen_right j)⟩
  · intro i j
    exact ⟨congrArg Except.ok (i.leq_widen_left j), congrArg Except.ok (i.leq_widen_right j)⟩
  · intro as bs ws hall
    exact ⟨tuple_le_tuple_iff.2 (hall.outer fun _ _ _ h => h.1),
      tuple_le_tuple_iff.2 (hall.right fun _ _ _ h => h.2)⟩
  · exact ⟨le_refl _, le_refl _⟩

/-- Widening changes nothing exactly if the second value lies below the first. -/
theorem widen_eq_left_iff (h : a.widen b = .ok w) : w = a ↔ b ≤ a := by
  constructor
  · rintro rfl
    exact (le_widen h).2
  · refine combineInduction (P := fun a b w => b ≤ a → w = a) ?_ ?_ ?_ ?_ ?_ h
    · intro s t hts
      rw [Truth.widen_eq_join, Truth.join_eq_left_iff.2 (Except.ok.inj hts)]
    · intro i j hji
      rw [Interval.widen_eq_left_iff.2 (Except.ok.inj hji)]
    · intro i j hji
      rw [Interval.widen_eq_left_iff.2 (Except.ok.inj hji)]
    · intro as bs ws hall hle
      have hboth := tuple_le_tuple_iff.1 hle
      congr 1
      induction hall with
      | nil => rfl
      | cons hw _ ih =>
        cases hboth with
        | cons hba htail => rw [hw hba, ih (tuple_le_tuple_iff.2 htail) htail]
    · exact fun _ => rfl

/-- Widening by a join with the value itself is widening by the other value. -/
theorem widen_join {j : Value} (h : a.join b = .ok j) : a.widen j = a.widen b := by
  unfold widen
  refine combineInduction (P := fun a b j =>
    combine Truth.widen Interval.widen a j = combine Truth.widen Interval.widen a b)
    ?_ ?_ ?_ ?_ ?_ h
  · intro s t
    rw [combine, combine, Truth.widen_eq_join, Truth.widen_eq_join, Truth.join_join_left]
  · intro i k
    rw [combine, combine, Interval.widen_join]
  · intro i k
    rw [combine, combine, Interval.widen_join]
  · intro as bs js hall
    have hlen : as.length = bs.length := hall.length_eq
    have hlen' : as.length = js.length :=
      (hall.outer (R := fun _ _ => True) fun _ _ _ _ => trivial).length_eq
    rw [combine, combine, if_pos hlen, if_pos hlen']
    clear hlen hlen'
    congr 1
    induction hall with
    | nil => rfl
    | cons hj _ ih => rw [combineAll, combineAll, hj, ih]
  · rfl

/-- **What one step does to the room that is left**: a value that changes has less of it. -/
theorem room_widen (h : a.widen b = .ok w) : w = a ∨ w.room < a.room := by
  unfold room
  refine combineInduction (P := fun a _ w => w = a ∨
    w.total Truth.room Interval.room < a.total Truth.room Interval.room) ?_ ?_ ?_ ?_ ?_ h
  · intro s t
    rw [Truth.widen_eq_join]
    exact (s.room_join t).imp (congrArg Value.bool) id
  · intro i j
    exact (i.room_widen j).imp (congrArg Value.int) id
  · intro i j
    exact (i.room_widen j).imp (congrArg Value.uint) id
  · intro as bs ws hall
    rw [total, total, Value.tuple.injEq]
    induction hall with
    | nil => exact .inl rfl
    | cons hw _ ih =>
      rw [totals, totals]
      rcases hw with rfl | hw
      · rcases ih with rfl | ih
        · exact .inl rfl
        · exact .inr (by omega)
      · rcases ih with rfl | ih
        · exact .inr (by omega)
        · exact .inr (by omega)
  · exact .inl rfl

end

/-! ### Sequences -/

/-- The values that a value is led through when it is widened by those of a sequence, one after the
other.  One of another shape would leave it as it is. -/
def widened (v : Value) (x : ℕ → Value) : ℕ → Value
  | 0 => v
  | n + 1 =>
    match (widened v x n).widen (x n) with
    | .ok w => w
    | .error _ => widened v x n

/-- Widening by values of its shape never fails, and keeps the shape. -/
theorem widen_widened {v : Value} {x : ℕ → Value} (hx : ∀ n, (x n).SameShape v) (n : ℕ) :
    (v.widened x n).SameShape v ∧ (v.widened x n).widen (x n) = .ok (v.widened x (n + 1)) := by
  -- the shape is what the induction carries; it makes the next step succeed
  have hstep : ∀ n, (v.widened x n).SameShape v →
      (v.widened x n).widen (x n) = .ok (v.widened x (n + 1)) := by
    intro n hn
    obtain ⟨w, hw⟩ : ∃ w, (v.widened x n).widen (x n) = .ok w :=
      exists_combine_iff.2 (hn.trans (hx n).symm)
    rw [widened, hw]
  have hshape : (v.widened x n).SameShape v := by
    induction n with
    | zero => exact sameShape_iff_top_eq.2 rfl
    | succ n ih => exact (sameShape_of_combine (hstep n ih)).2.symm.trans ih
  exact ⟨hshape, hstep n hshape⟩

end Value

/-- **A sequence of numbers that never grows drops at most as often as its first number says.** -/
theorem encard_drops_le {r : ℕ → ℕ} (hr : Antitone r) : {n | r (n + 1) < r n}.encard ≤ r 0 := by
  have hmaps : Set.MapsTo r {n | r (n + 1) < r n} (Set.Icc 1 (r 0)) := by
    intro n hn
    have hpos : r (n + 1) < r n := hn
    exact ⟨by omega, hr (Nat.zero_le n)⟩
  -- after a drop the old number never comes back
  have hlater : ∀ {m n}, r (m + 1) < r m → m < n → r m ≠ r n := by
    intro m n hm hmn
    have hle : r n ≤ r (m + 1) := hr hmn
    omega
  have hinj : Set.InjOn r {n | r (n + 1) < r n} := by
    intro m hm n hn heq
    rcases Nat.lt_trichotomy m n with hlt | rfl | hlt
    · exact absurd heq (hlater hm hlt)
    · rfl
    · exact absurd heq.symm (hlater hn hlt)
  calc {n | r (n + 1) < r n}.encard ≤ (Set.Icc 1 (r 0)).encard :=
        Set.encard_le_encard_of_injOn hmaps hinj
    _ = r 0 := by
      rw [← Finset.coe_Icc, Set.encard_coe_eq_coe_finsetCard, Nat.card_Icc, Nat.add_sub_cancel]

/-- A sequence that changes finitely often comes to rest. -/
theorem exists_rest {α : Type} {u : ℕ → α} (h : {n | u (n + 1) ≠ u n}.Finite) :
    ∃ N, ∀ n, N ≤ n → u n = u N := by
  obtain ⟨m, hm⟩ := h.bddAbove
  refine ⟨m + 1, fun n hn => ?_⟩
  induction n, hn using Nat.le_induction with
  | base => rfl
  | succ n hn ih =>
    by_contra hne
    have hle : n ≤ m := hm fun heq => hne (heq.trans ih)
    omega

namespace Value

/-- **Widening over-approximates and converges.**  A value that is widened by a sequence of values
of its shape, one after the other, is led through values such that

* each step succeeds, and leads above the value before it and above its join with the next value of
  the sequence;
* the step by that join is the same step;
* the step changes nothing exactly if the next value of the sequence already lies below;
* there are at most twice as many changes as the value has truth values and intervals, and so the
  values come to rest.

For two values of any shapes widening is refused as the join is, with the same violation. -/
theorem widening_converges (v : Value) (x : ℕ → Value) (hx : ∀ n, (x n).SameShape v) :
    (∃ cur : ℕ → Value, cur 0 = v ∧
      (∀ n, (cur n).widen (x n) = .ok (cur (n + 1)) ∧ (cur n).leq (cur (n + 1)) = .ok true ∧
        (∃ j, (cur n).join (x n) = .ok j ∧ j.leq (cur (n + 1)) = .ok true ∧
          (cur n).widen j = .ok (cur (n + 1))) ∧
        (cur (n + 1) = cur n ↔ (x n).leq (cur n) = .ok true)) ∧
      {n | cur (n + 1) ≠ cur n}.encard ≤ (2 * v.leafCount : ℕ) ∧
      ∃ N, ∀ n, N ≤ n → cur n = cur N) ∧
    ∀ (a b : Value) (e : Violation), a.widen b = .error e ↔ a.join b = .error e := by
  have hstep := fun n => (widen_widened hx n).2
  have hanti : Antitone fun n => (v.widened x n).room := by
    refine antitone_nat_of_succ_le fun n => ?_
    rcases room_widen (hstep n) with heq | hlt
    · rw [heq]
    · exact hlt.le
  have hchanges : {n | v.widened x (n + 1) ≠ v.widened x n}.encard ≤ (2 * v.leafCount : ℕ) := by
    calc {n | v.widened x (n + 1) ≠ v.widened x n}.encard
        ≤ {n | (v.widened x (n + 1)).room < (v.widened x n).room}.encard :=
          Set.encard_le_encard fun n hn => (room_widen (hstep n)).resolve_left hn
      _ ≤ v.room := encard_drops_le hanti
      _ ≤ (2 * v.leafCount : ℕ) := Nat.cast_le.2 v.room_le
  refine ⟨⟨v.widened x, rfl, ?_, hchanges, exists_rest (Set.finite_of_encard_le_coe hchanges)⟩,
    fun a b e => ⟨combine_error_of, combine_error_of⟩⟩
  intro n
  obtain ⟨hle, hxle⟩ := le_widen (hstep n)
  obtain ⟨j, hj⟩ : ∃ j, (v.widened x n).join (x n) = .ok j :=
    exists_combine_iff.2 ((widen_widened hx n).1.trans (hx n).symm)
  exact ⟨hstep n, hle, ⟨j, hj, (join_le_iff hj).2 ⟨hle, hxle⟩, (widen_join hj).trans (hstep n)⟩,
    widen_eq_left_iff (hstep n)⟩

/-- A sequence that moves one leaf of a pair at a time and is not ascending. -/
def climb : ℕ → Value
  | 0 => nestedPair .true (.single 0)
  | 1 => nestedPair .false (.single 0)
  | 2 => nestedPair .bot (.single (-1))
  | _ => nestedPair .bot (.single 1)

/-- With two leaves there can be four changes: the bound is reached. -/
theorem widening_converges_climb :
    ∃ cur : ℕ → Value, cur 0 = nestedPair .bot (.single 0) ∧
      (∀ n, (cur n).widen (climb n) = .ok (cur (n + 1))) ∧
      {n | cur (n + 1) ≠ cur n}.encard = (2 * (nestedPair .bot (.single 0)).leafCount : ℕ) := by
  have hclimb : ∀ n, (climb n).SameShape (nestedPair .bot (.single 0)) := by
    intro n
    refine sameShape_iff_top_eq.2 ?_
    match n with
    | 0 => rfl
    | 1 => rfl
    | 2 => rfl
    | _ + 3 => rfl
  obtain ⟨⟨cur, hzero, hsteps, hle, -⟩, -⟩ := widening_converges _ climb hclimb
  have hwiden := fun n => (hsteps n).1
  refine ⟨cur, hzero, hwiden, le_antisymm hle ?_⟩
  have hnext : ∀ {n w w'}, cur n = w → w.widen (climb n) = .ok w' → cur (n + 1) = w' := by
    rintro n _ w' rfl h
    exact Except.ok.inj ((hwiden n).symm.trans h)
  have hone : cur 1 = nestedPair .true (.single 0) := hnext hzero rfl
  have htwo : cur 2 = nestedPair .top (.single 0) := hnext hone rfl
  have hthree : cur 3 = nestedPair .top ⟨.negInf, .fin 0⟩ := hnext htwo rfl
  have hfour : cur 4 = nestedPair .top .top := hnext hthree rfl
  have hsub : (({0, 1, 2, 3} : Finset ℕ) : Set ℕ) ⊆ {n | cur (n + 1) ≠ cur n} := by
    intro n hn
    simp only [Finset.coe_insert, Finset.coe_singleton, Set.mem_insert_iff,
      Set.mem_singleton_iff] at hn
    rcases hn with rfl | rfl | rfl | rfl
    · simp [hzero, hone, nestedPair]
    · simp [hone, htwo, nestedPair]
    · simp [htwo, hthree, nestedPair, Interval.single]
    · simp [hthree, hfour, nestedPair, Interval.top]
  calc ((2 * (nestedPair .bot (.single 0)).leafCount : ℕ) : ℕ∞)
      = (({0, 1, 2, 3} : Finset ℕ) : Set ℕ).encard := by
        rw [Set.encard_coe_eq_coe_finsetCard]
        rfl
    _ ≤ {n | cur (n + 1) ≠ cur n}.encard := Set.encard_le_encard hsub

end Value

end MirRange
