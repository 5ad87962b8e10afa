import MirRange.Interval

/-!
# Bounds in order, and the integers of an interval

Bounds are totally ordered, with the infinite ones at the ends, and their addition respects the
order although it lets the lower infinity win over the upper one.  Two readings of the operations on
intervals follow from that.

* `Interval.contains_add`, `Interval.equals_admits`, `Interval.lessThan_admits`: what an operation
  answers for two intervals holds of any two integers that lie in them.
* `Interval.add_leq_add`, `Interval.equals_leq_equals`, `Interval.lessThan_leq_lessThan`: on wider
  intervals the answers are wider.  For the comparisons the narrower intervals must be `Ordered`: an
  inverted interval lies within a single integer without being equal to it.
-/

namespace MirRange

namespace Bound

@[simp] theorem negInf_le (a : Bound) : le .negInf a = true := by
  cases a <;> rfl

@[simp] theorem le_posInf (a : Bound) : le a .posInf = true := by
  cases a <;> rfl

@[simp] theorem fin_le_fin (m n : Int) : le (.fin m) (.fin n) = true ↔ m ≤ n := by
  simp [le, lt]

@[simp] theorem posInf_le_fin (n : Int) : le .posInf (.fin n) = false := rfl

@[simp] theorem fin_le_negInf (n : Int) : le (.fin n) .negInf = false := rfl

@[simp] theorem posInf_le_negInf : le .posInf .negInf = false := rfl

theorem lt_eq_not_le (a b : Bound) : lt a b = !le b a := by
  simp [le]

theorem le_of_not_lt {a b : Bound} (h : ¬lt a b = true) : le b a = true := by
  rw [le, Bool.eq_false_iff.2 h]
  rfl

theorem not_lt_of_le {a b : Bound} (h : le a b = true) : ¬lt b a = true := by
  rw [lt_eq_not_le, h]
  exact Bool.false_ne_true

theorem lt_of_not_le {a b : Bound} (h : ¬le a b = true) : lt b a = true := by
  rw [lt_eq_not_le, Bool.eq_false_iff.2 h]
  rfl

theorem le_refl (a : Bound) : le a a = true := by
  cases a <;> simp

theorem le_trans {a b c : Bound} (hab : le a b = true) (hbc : le b c = true) : le a c = true := by
  cases a <;> cases b <;> cases c <;> simp at hab hbc ⊢
  omega

theorem le_antisymm {a b : Bound} (hab : le a b = true) (hba : le b a = true) : a = b := by
  cases a <;> cases b <;> simp at hab hba ⊢
  omega

theorem le_of_lt {a b : Bound} (h : lt a b = true) : le a b = true := by
  cases a <;> cases b <;> simp [lt] at h ⊢
  omega

theorem lt_of_le_of_lt {a b c : Bound} (hab : le a b = true) (hbc : lt b c = true) :
    lt a c = true := by
  rw [lt_eq_not_le, Bool.not_eq_true', Bool.eq_false_iff] at hbc ⊢
  exact fun hca => hbc (le_trans hca hab)

theorem lt_of_lt_of_le {a b c : Bound} (hab : lt a b = true) (hbc : le b c = true) :
    lt a c = true := by
  rw [lt_eq_not_le, Bool.not_eq_true', Bool.eq_false_iff] at hab ⊢
  exact fun hca => hab (le_trans hbc hca)

/-- Addition respects the order in both arguments. -/
theorem add_le_add {a a' b b' : Bound} (ha : le a a' = true) (hb : le b b' = true) :
    le (add a b) (add a' b') = true := by
  cases a <;> cases a' <;> cases b <;> cases b' <;> simp [add] at ha hb ⊢
  omega

end Bound

namespace Truth

/-- Whether a truth value is among those that a point stands for. -/
def admits : Truth → Bool → Bool
  | .top, _ => Bool.true
  | .true, b => b
  | .false, b => !b
  | .bot, _ => Bool.false

@[simp] theorem admits_ofBool (b : Bool) : (ofBool b).admits b = Bool.true := by
  cases b <;> rfl

@[simp] theorem leq_refl (t : Truth) : t.leq t = Bool.true := by
  cases t <;> rfl

@[simp] theorem leq_top (t : Truth) : t.leq .top = Bool.true := by
  cases t <;> rfl

/-- The equality of two truth values is among those that `equals` answers. -/
theorem equals_admits {s t : Truth} {a b : Bool} (ha : s.admits a = Bool.true)
    (hb : t.admits b = Bool.true) : (s.equals t).admits (a == b) = Bool.true := by
  cases s <;> cases t <;> cases a <;> cases b <;> first | rfl | exact absurd ha (by decide) |
    exact absurd hb (by decide)

theorem equals_leq_equals {s s' t t' : Truth} (hs : s.leq s' = Bool.true)
    (ht : t.leq t' = Bool.true) : (s.equals t).leq (s'.equals t') = Bool.true := by
  revert hs ht
  cases s <;> cases s' <;> cases t <;> cases t' <;> decide

end Truth

namespace Interval

/-- The bounds are in order.  Only such intervals are read from documents. -/
def Ordered (i : Interval) : Prop :=
  Bound.le i.lower i.upper = true

theorem ordered_top : top.Ordered := rfl

theorem contains_iff {i : Interval} {n : Int} :
    i.contains n = true ↔ Bound.le i.lower (.fin n) = true ∧ Bound.le (.fin n) i.upper = true := by
  rw [contains, Bool.and_eq_true]

theorem leq_iff {i j : Interval} :
    i.leq j = true ↔ Bound.le j.lower i.lower = true ∧ Bound.le i.upper j.upper = true := by
  rw [leq, Bool.and_eq_true]

theorem isSingle_iff {i : Interval} : i.isSingle = true ↔ ∃ n, i = single n := by
  obtain ⟨lower, upper⟩ := i
  cases lower <;> simp [isSingle, single, Bound.isFinite, eq_comm]

theorem leq_refl (i : Interval) : i.leq i = true :=
  leq_iff.2 ⟨Bound.le_refl _, Bound.le_refl _⟩

theorem leq_top (i : Interval) : i.leq top = true :=
  leq_iff.2 ⟨Bound.negInf_le _, Bound.le_posInf _⟩

/-! ### What the operations answer for the integers of two intervals -/

theorem contains_add {i j : Interval} {m n : Int} (hm : i.contains m = true)
    (hn : j.contains n = true) : (i.add j).contains (m + n) = true := by
  rw [contains_iff] at hm hn ⊢
  exact ⟨Bound.add_le_add hm.1 hn.1, Bound.add_le_add hm.2 hn.2⟩

/-- Integers of two intervals are in order if the bounds between them are. -/
theorem lt_of_contains {i j : Interval} {m n : Int} (hm : i.contains m = true)
    (hn : j.contains n = true) (h : Bound.lt i.upper j.lower = true) : m < n := by
  rw [contains_iff] at hm hn
  have hmn := Bound.lt_of_lt_of_le (Bound.lt_of_le_of_lt hm.2 h) hn.1
  simpa [Bound.lt] using hmn

theorem eq_of_isSingle {i : Interval} {m n : Int} (hi : i.isSingle = true)
    (hm : i.contains m = true) (hn : i.contains n = true) : m = n := by
  obtain ⟨k, rfl⟩ := isSingle_iff.1 hi
  simp only [contains_iff, single, Bound.fin_le_fin] at hm hn
  omega

/-- Whether two integers are equal is among what `equals` answers for their intervals. -/
theorem equals_admits {i j : Interval} {m n : Int} (hm : i.contains m = true)
    (hn : j.contains n = true) : (i.equals j).admits (m == n) = true := by
  unfold equals
  split
  · rename_i hdisjoint
    rw [Bool.or_eq_true] at hdisjoint
    have hne : m ≠ n := by
      rcases hdisjoint with h | h
      · exact Int.ne_of_lt (lt_of_contains hm hn h)
      · exact (Int.ne_of_lt (lt_of_contains hn hm h)).symm
    simp [Truth.admits, hne]
  · split
    · rename_i hsingle
      rw [Bool.and_eq_true, decide_eq_true_eq] at hsingle
      obtain ⟨hi, rfl⟩ := hsingle
      simp [Truth.admits, eq_of_isSingle hi hm hn]
    · rfl

/-- Whether an integer is below another is among what `lessThan` answers for their intervals. -/
theorem lessThan_admits {i j : Interval} {m n : Int} (hm : i.contains m = true)
    (hn : j.contains n = true) : (i.lessThan j).admits (decide (m < n)) = true := by
  unfold lessThan
  split
  · rename_i h
    simp [Truth.admits, lt_of_contains hm hn h]
  · split
    · rename_i h
      rw [contains_iff] at hm hn
      have hnm := Bound.le_trans hn.2 (Bound.le_trans h hm.1)
      rw [Bound.fin_le_fin] at hnm
      simp [Truth.admits, Int.not_lt.2 hnm]
    · rfl

/-! ### The operations on wider intervals -/

theorem add_ordered {i j : Interval} (hi : i.Ordered) (hj : j.Ordered) : (i.add j).Ordered :=
  Bound.add_le_add hi hj

theorem add_leq_add {i i' j j' : Interval} (hi : i.leq i' = true) (hj : j.leq j' = true) :
    (i.add j).leq (i'.add j') = true := by
  rw [leq_iff] at hi hj ⊢
  exact ⟨Bound.add_le_add hi.1 hj.1, Bound.add_le_add hi.2 hj.2⟩

/-- What lies between the bounds of wider intervals lies between those of narrower ones. -/
theorem lt_of_leq {i i' j j' : Interval} (hi : i.leq i' = true) (hj : j.leq j' = true)
    (h : Bound.lt i'.upper j'.lower = true) : Bound.lt i.upper j.lower = true :=
  Bound.lt_of_lt_of_le (Bound.lt_of_le_of_lt (leq_iff.1 hi).2 h) (leq_iff.1 hj).1

/-- An ordered interval within a single integer is that integer. -/
theorem eq_of_leq_isSingle {i j : Interval} (hi : i.Ordered) (hj : j.isSingle = true)
    (h : i.leq j = true) : i = j := by
  obtain ⟨k, rfl⟩ := isSingle_iff.1 hj
  obtain ⟨hlower, hupper⟩ := leq_iff.1 h
  have hl : i.lower = .fin k := Bound.le_antisymm (Bound.le_trans hi hupper) hlower
  have hu : i.upper = .fin k := Bound.le_antisymm hupper (Bound.le_trans hlower hi)
  calc i = ⟨i.lower, i.upper⟩ := rfl
    _ = single k := by rw [hl, hu]; rfl

theorem equals_leq_equals {i i' j j' : Interval} (hio : i.Ordered) (hjo : j.Ordered)
    (hi : i.leq i' = true) (hj : j.leq j' = true) :
    (i.equals j).leq (i'.equals j') = true := by
  by_cases hd : (Bound.lt i'.upper j'.lower || Bound.lt j'.upper i'.lower) = true
  · have hd' : (Bound.lt i.upper j.lower || Bound.lt j.upper i.lower) = true := by
      rw [Bool.or_eq_true] at hd ⊢
      exact hd.imp (lt_of_leq hi hj) (lt_of_leq hj hi)
    rw [equals, if_pos hd', equals, if_pos hd]
    rfl
  · by_cases hs : (i'.isSingle && decide (i' = j')) = true
    · -- both narrower intervals are the one integer of the wider ones
      rw [Bool.and_eq_true, decide_eq_true_eq] at hs
      obtain ⟨hs, rfl⟩ := hs
      rw [eq_of_leq_isSingle hio hs hi, eq_of_leq_isSingle hjo hs hj]
      exact Truth.leq_refl _
    · rw [equals.eq_def i' j', if_neg hd, if_neg hs]
      exact Truth.leq_top _

theorem lessThan_leq_lessThan {i i' j j' : Interval} (hio : i.Ordered) (hjo : j.Ordered)
    (hi : i.leq i' = true) (hj : j.leq j' = true) :
    (i.lessThan j).leq (i'.lessThan j') = true := by
  by_cases hlt : Bound.lt i'.upper j'.lower = true
  · rw [lessThan, if_pos (lt_of_leq hi hj hlt), lessThan, if_pos hlt]
    rfl
  · by_cases hge : Bound.le j'.upper i'.lower = true
    · have hge' : Bound.le j.upper i.lower = true :=
        Bound.le_trans (leq_iff.1 hj).2 (Bound.le_trans hge (leq_iff.1 hi).1)
      -- the narrower intervals cannot be in order the other way: their bounds would be inverted
      have hlt' : ¬Bound.lt i.upper j.lower = true := by
        rw [Bound.lt_eq_not_le, Bool.not_eq_true', Bool.not_eq_false]
        exact Bound.le_trans hjo (Bound.le_trans hge' hio)
      rw [lessThan, if_neg hlt', if_pos hge', lessThan, if_neg hlt, if_pos hge]
      rfl
    · rw [lessThan.eq_def i' j', if_neg hlt, if_neg hge]
      exact Truth.leq_top _

end Interval

end MirRange
