import MirRange.Proofs.Exactness
import MirRange.Proofs.OverflowQuery
import MirRange.Proofs.Readback

/-!
# Founded alarms

A solver is asked whether some sum of two cut ranges leaves the range of the type, and its answer is
taken for one about the observed intervals.  A report is founded if the operands of such a sum lie
in these intervals, and not only in the ranges they were cut down to.  Cutting replaces an infinite
bound by the end of the range on its side, whichever infinity it is.  So an interval whose bounds
are one and the same infinity, which holds no integer, is cut down to all integers of the type, and
reports that rest on it are unfounded.

* `Interval.AtInfinity`: the intervals of one infinity; `Interval.not_atInfinity_of_contains`: they
  hold no integer.
* `Interval.mem_clamp_iff`: any other interval is cut down to the integers that it shares with the
  range.
* `Interval.contains_iff_of_mem_clamp`: what becomes of an integer that is named after cutting.
* `Overflow.alarm_founded_iff`: which reports are founded, for every correct solver.
-/

namespace MirRange

namespace Interval

/-- Both bounds are the same infinity. -/
def AtInfinity (i : Interval) : Prop :=
  i = ⟨.negInf, .negInf⟩ ∨ i = ⟨.posInf, .posInf⟩

/-- No integer lies in an interval of one infinity. -/
theorem not_atInfinity_of_contains {i : Interval} {n : Int} (h : i.contains n = true) :
    ¬i.AtInfinity := by
  have hnonempty : i.Nonempty := ⟨n, h⟩
  intro hinf
  rcases hinf with rfl | rfl
  · exact hnonempty.upper_ne rfl
  · exact hnonempty.lower_ne rfl

/-- **An interval with ordered bounds that is not an infinity alone is cut down to the integers that
it shares with the range.** -/
theorem mem_clamp_iff {i : Interval} (hordered : i.Ordered) (hinf : ¬i.AtInfinity)
    {within : IntRange} {m : Int} :
    m ∈ i.clamp within ↔ m ∈ within ∧ i.contains m = true := by
  constructor
  · intro hm
    obtain ⟨lower, upper⟩ := i
    obtain ⟨hmin, hmax⟩ := hm
    -- the other infinity can only stand at the other end, where it allows everything
    have hlower : within.min ≤ m ∧ Bound.le lower (.fin m) = true := by
      cases lower with
      | negInf => exact ⟨hmin, Bound.negInf_le _⟩
      | fin k =>
        have hk : max within.min k ≤ m := hmin
        rw [Bound.fin_le_fin]
        omega
      | posInf =>
        cases upper with
        | negInf => cases hordered
        | fin k => cases hordered
        | posInf => exact absurd (.inr rfl) hinf
    have hupper : m ≤ within.max ∧ Bound.le (.fin m) upper = true := by
      cases upper with
      | negInf =>
        cases lower with
        | negInf => exact absurd (.inl rfl) hinf
        | fin k => cases hordered
        | posInf => cases hordered
      | fin k =>
        have hk : m ≤ min within.max k := hmax
        rw [Bound.fin_le_fin]
        omega
      | posInf => exact ⟨hmax, Bound.le_posInf _⟩
    exact ⟨⟨hlower.1, hupper.1⟩, contains_iff.2 ⟨hlower.2, hupper.2⟩⟩
  · intro h
    exact clamp_contains h.2 h.1

/-- What is cut down to a range lies in it. -/
theorem mem_of_mem_clamp {i : Interval} {within : IntRange} {m : Int} (h : m ∈ i.clamp within) :
    m ∈ within :=
  (clamp_isIn (Int.le_trans h.1 h.2)).mem h

/-- What is left of an interval with ordered bounds lies in it, unless it is an infinity alone. -/
theorem contains_iff_of_mem_clamp {i : Interval} (hordered : i.Ordered) {within : IntRange}
    {m : Int} (h : m ∈ i.clamp within) : i.contains m = true ↔ ¬i.AtInfinity := by
  constructor
  · exact not_atInfinity_of_contains
  · intro hinf
    exact ((mem_clamp_iff hordered hinf).1 h).2

end Interval

/-- The interval of a value that is read from a document is ordered. -/
theorem Value.ordered_of_interval? {d : Document} {v : Value} (h : ofDocument d = .ok v)
    {i : Interval} (hi : v.interval? = some i) : i.Ordered := by
  have hordered : v.Ordered := (ofDocument_eq_ok.1 h).2
  cases v with
  | int k =>
    obtain rfl : k = i := Option.some.inj hi
    exact ordered_int_iff.1 hordered
  | uint k =>
    obtain rfl : k = i := Option.some.inj hi
    exact ordered_uint_iff.1 hordered
  | bool t => cases hi
  | tuple items => cases hi
  | uninit => cases hi

namespace Overflow

/-- **Which alarms are founded.**  Let the operands of an observed operation be values that can be
read from documents, and let its overflow be reported after asking a correct solver, and not as
undecided.  Then the operands are intervals, the type is one of integers, and

* there are integers of the type in the two intervals whose sum is not in the type, exactly if
  neither interval is an infinity alone;
* the report names two integers of the type whose sum is not in the type, and each of them lies in
  its interval exactly if that is not an infinity alone. -/
theorem alarm_founded_iff {solver : Solver} (hsolver : solver.Correct) {c : CheckedOp}
    {left right : Document} (hleft : Value.ofDocument left = .ok c.left)
    (hright : Value.ofDocument right = .ok c.right) {timeoutMs : Int} {function : String}
    {d : Diagnostic} (h : check (solver.verdict timeoutMs) function c = some d)
    (hdecided : d.inconclusive = false) :
    ∃ i j within, c.left.interval? = some i ∧ c.right.interval? = some j ∧
      c.ty.range? = some within ∧
      ((∃ m n, i.contains m = true ∧ j.contains n = true ∧ m ∈ within ∧ n ∈ within ∧
          m + n ∉ within) ↔ ¬i.AtInfinity ∧ ¬j.AtInfinity) ∧
      ∃ m n, d.witness = [("left", .int m), ("right", .int n)] ∧ m ∈ within ∧ n ∈ within ∧
        m + n ∉ within ∧ (i.contains m = true ↔ ¬i.AtInfinity) ∧
        (j.contains n = true ↔ ¬j.AtInfinity) := by
  have hpossible := possible_of_check h hdecided
  obtain ⟨i, j, hi, hj, hdecide⟩ := Solver.exists_decideAdd_of_possible hpossible
  obtain ⟨within, m, n, hwithin, hm, hn, hsum, hwitness⟩ := hsolver.overflow_of_possible hdecide
  have hm' := Interval.contains_iff_of_mem_clamp (Value.ordered_of_interval? hleft hi) hm
  have hn' := Interval.contains_iff_of_mem_clamp (Value.ordered_of_interval? hright hj) hn
  have hmin : m ∈ within := Interval.mem_of_mem_clamp hm
  have hnin : n ∈ within := Interval.mem_of_mem_clamp hn
  refine ⟨i, j, within, hi, hj, hwithin, ⟨?_, ?_⟩, m, n, hwitness, hmin, hnin, hsum, hm', hn'⟩
  · intro hshown
    obtain ⟨k, l, hk, hl, -⟩ := hshown
    exact ⟨Interval.not_atInfinity_of_contains hk, Interval.not_atInfinity_of_contains hl⟩
  · intro hfinite
    exact ⟨m, n, hm'.2 hfinite.1, hn'.2 hfinite.2, hmin, hnin, hsum⟩

/-- An unsigned addition of integers from 250 on, without an upper bound, and up to 10. -/
def fromBelow : CheckedOp where
  location := ⟨0, 0⟩
  op := .add
  left := .uint ⟨.fin 250, .posInf⟩
  right := .uint (.between 0 10)
  ty := .uint 8

/-- The addition is reported, and there are operands of eight bits that overflow. -/
theorem alarm_founded_iff_fromBelow :
    (∃ d, check (Solver.ends.verdict 10000) "f" fromBelow = some d ∧ d.inconclusive = false) ∧
      ∃ m n, Interval.contains ⟨.fin 250, .posInf⟩ m = true ∧
        (Interval.between 0 10).contains n = true ∧ m ∈ IntRange.mk 0 255 ∧
        n ∈ IntRange.mk 0 255 ∧ m + n ∉ IntRange.mk 0 255 := by
  have hleft : Value.ofDocument fromBelow.left.toDocument = .ok fromBelow.left :=
    Value.ofDocument_toDocument (Value.ordered_uint_iff.2 rfl)
  have hright : Value.ofDocument fromBelow.right.toDocument = .ok fromBelow.right :=
    Value.ofDocument_toDocument (Value.ordered_uint_iff.2 rfl)
  obtain ⟨d, hd, hdecided⟩ : ∃ d, check (Solver.ends.verdict 10000) "f" fromBelow = some d ∧
      d.inconclusive = false := ⟨_, rfl, rfl⟩
  obtain ⟨i, j, within, hi, hj, hwithin, hiff, -⟩ :=
    alarm_founded_iff Solver.ends_correct hleft hright hd hdecided
  cases hi
  cases hj
  cases hwithin
  refine ⟨⟨d, hd, hdecided⟩, hiff.2 ⟨?_, ?_⟩⟩
  · exact Interval.not_atInfinity_of_contains (n := 250) rfl
  · exact Interval.not_atInfinity_of_contains (n := 0) rfl

/-- An unsigned addition of one bit, of an operand that is an infinity alone and of 1. -/
def fromInfinity : CheckedOp where
  location := ⟨0, 0⟩
  op := .add
  left := .uint ⟨.posInf, .posInf⟩
  right := .uint (.single 1)
  ty := .uint 1

/-- Both operands can be read from documents, and a correct solver lets the addition be reported
with the operands 1 and 1, although no integer lies in the first interval. -/
theorem fromInfinity_unfounded :
    (∃ left, Value.ofDocument left = .ok fromInfinity.left) ∧
      (∃ right, Value.ofDocument right = .ok fromInfinity.right) ∧
      Solver.ends.Correct ∧
      (∃ d, check (Solver.ends.verdict 10000) "f" fromInfinity = some d ∧ d.inconclusive = false ∧
        d.witness = [("left", .int 1), ("right", .int 1)]) ∧
      ∃ i, fromInfinity.left.interval? = some i ∧ ¬∃ m, i.contains m = true := by
  refine ⟨⟨_, Value.ofDocument_toDocument (Value.ordered_uint_iff.2 rfl)⟩,
    ⟨_, Value.ofDocument_toDocument (Value.ordered_uint_iff.2 rfl)⟩, Solver.ends_correct,
    ⟨_, rfl, rfl, rfl⟩, _, rfl, ?_⟩
  intro h
  obtain ⟨m, hm⟩ := h
  exact Interval.not_atInfinity_of_contains hm (.inr rfl)

end Overflow

end MirRange
