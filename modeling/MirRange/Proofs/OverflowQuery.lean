import MirRange.Overflow
import MirRange.Proofs.Bounds
import MirRange.Proofs.Path

/-!
# Overflow as a question about bit vectors

Whether an addition may overflow is put to a solver for bit vectors: are there two vectors of the
width of the type, each between the encoded ends of its range, whose addition overflows or
underflows?  Vectors wrap around and their ends are encoded modulo a power of two, yet the question
is the one about integers, at every width.

What a solver calls an overflow, and what it answers, are parameters, known by their documentation
only.

* `BitAdd.Documented`: what the predicates of a solver are documented to mean;
  `BitAdd.signs_documented`: sign and carry bits tell it.
* `Overflow.query_iff`: the vectors that answer the question are the integers that overflow.
* `Solver.Correct`: no answer of a solver is wrong; `Solver.Decides`: it answers all questions;
  `Solver.ends_correct`: the ends of the ranges are enough.
* `Solver.decideAdd_cases`: all that can come of asking; `Solver.Correct.isAlarm_of_overflow`,
  `Solver.Correct.overflow_of_possible`: what the verdicts of a correct solver mean.
* `Overflow.query_means_overflow`: when the question has an answer, and what is reported then.
-/

namespace MirRange

/-- The integers of a range, ends included. -/
instance : Membership Int IntRange :=
  ⟨fun r n => r.min ≤ n ∧ n ≤ r.max⟩

theorem IntRange.mem_iff {r : IntRange} {n : Int} : n ∈ r ↔ r.min ≤ n ∧ n ≤ r.max := Iff.rfl

theorem IntRange.mem_mk {a b n : Int} : n ∈ IntRange.mk a b ↔ a ≤ n ∧ n ≤ b := Iff.rfl

theorem IntRange.IsIn.ends {r within : IntRange} (h : r.IsIn within) :
    r.min ∈ within ∧ r.max ∈ within :=
  ⟨⟨h.1, Int.le_trans h.2.1 h.2.2⟩, Int.le_trans h.1 h.2.1, h.2.2⟩

theorem IntRange.IsIn.mem {r within : IntRange} (h : r.IsIn within) {n : Int} (hn : n ∈ r) :
    n ∈ within :=
  ⟨Int.le_trans h.1 hn.1, Int.le_trans hn.2 h.2.2⟩

/-- Some sum of two ranges leaves a third one exactly if those of the greatest or of the least
integers do. -/
theorem IntRange.exists_sum_notMem_iff {left right within : IntRange} (hleft : left.min ≤ left.max)
    (hright : right.min ≤ right.max) :
    (∃ m ∈ left, ∃ n ∈ right, m + n ∉ within) ↔
      within.max < left.max + right.max ∨ left.min + right.min < within.min := by
  constructor
  · intro h
    obtain ⟨m, hm, n, hn, hsum⟩ := h
    rw [IntRange.mem_iff] at hm hn hsum
    omega
  · intro h
    rcases h with habove | hbelow
    · refine ⟨left.max, ⟨hleft, Int.le_refl _⟩, right.max, ⟨hright, Int.le_refl _⟩, ?_⟩
      rw [IntRange.mem_iff]
      omega
    · refine ⟨left.min, ⟨Int.le_refl _, hleft⟩, right.min, ⟨Int.le_refl _, hright⟩, ?_⟩
      rw [IntRange.mem_iff]
      omega

/-! ### Types and their vectors -/

namespace Ty

variable {w : Nat}

theorem width?_eq_some {ty : Ty} : ty.width? = some w ↔ ty = .int w ∨ ty = .uint w := by
  cases ty <;> simp [width?]

theorem exists_width?_of_range? {ty : Ty} {within : IntRange} (h : ty.range? = some within) :
    ∃ w, ty.width? = some w := by
  cases ty with
  | int bits => exact ⟨bits, rfl⟩
  | uint bits => exact ⟨bits, rfl⟩
  | _ => cases h

/-- A signed type ranges from the least to the greatest vector of its width. -/
theorem range?_int (hw : 1 ≤ w) :
    (Ty.int w).range? = some ⟨(BitVec.intMin w).toInt, (BitVec.intMax w).toInt⟩ := by
  have hpow : (Nat.pow 2 (w - 1) : Int) = 2 ^ (w - 1) := Int.natCast_pow 2 (w - 1)
  rw [BitVec.toInt_intMin_of_pos hw, BitVec.toInt_intMax, ← hpow]
  rfl

/-- An unsigned type ranges from zero to the vector of ones. -/
theorem range?_uint : (Ty.uint w).range? = some ⟨0, (BitVec.allOnes w).toNat⟩ := by
  have hpos : 0 < Nat.pow 2 w := Nat.two_pow_pos w
  have hpow : ((BitVec.allOnes w).toNat : Int) = (Nat.pow 2 w : Int) - 1 := by
    rw [BitVec.toNat_allOnes]
    exact Int.natCast_sub hpos
  rw [hpow]
  rfl

end Ty

/-! ### The predicates of a solver -/

namespace BitAdd

variable {w : Nat}

/-- What the predicates are documented to mean: the sum is not above the greatest number of the
width, for either reading of the vectors, and not below the least signed one. -/
structure Documented (t : BitAdd w) : Prop where
  signed : ∀ x y, t.noOverflow true x y = true ↔ x.toInt + y.toInt ≤ (BitVec.intMax w).toInt
  unsigned : ∀ x y, t.noOverflow false x y = true ↔ x.toNat + y.toNat ≤ (BitVec.allOnes w).toNat
  underflow : ∀ x y, t.noUnderflow x y = true ↔ (BitVec.intMin w).toInt ≤ x.toInt + y.toInt

theorem toInt_intMin_eq (hw : 1 ≤ w) :
    (BitVec.intMin w).toInt = -((BitVec.intMax w).toInt + 1) := by
  rw [BitVec.toInt_intMin_of_pos hw, BitVec.toInt_intMax]
  omega

theorem two_pow_eq (hw : 1 ≤ w) : (Nat.pow 2 w : Int) = 2 * ((BitVec.intMax w).toInt + 1) := by
  obtain ⟨k, rfl⟩ : ∃ k, w = k + 1 := ⟨w - 1, by omega⟩
  have hpow : (Nat.pow 2 (k + 1) : Int) = 2 * 2 ^ k := by
    rw [show Nat.pow 2 (k + 1) = 2 * 2 ^ k from Nat.pow_succ']
    exact_mod_cast rfl
  rw [hpow, BitVec.toInt_intMax, Nat.add_sub_cancel]
  omega

theorem intMin_le_toInt (hw : 1 ≤ w) (x : BitVec w) : (BitVec.intMin w).toInt ≤ x.toInt := by
  rw [BitVec.toInt_intMin_of_pos hw]
  exact BitVec.le_toInt x

theorem toInt_le_intMax (x : BitVec w) : x.toInt ≤ (BitVec.intMax w).toInt := by
  have hlt := BitVec.toInt_lt (x := x)
  rw [BitVec.toInt_intMax]
  omega

/-- The wrapped sum of two vectors is the exact one, unless that is out of range on one side. -/
theorem toInt_add_cases (hw : 1 ≤ w) (x y : BitVec w) :
    (x + y).toInt = x.toInt + y.toInt ∨
      ((BitVec.intMax w).toInt < x.toInt + y.toInt ∧
        (x + y).toInt = x.toInt + y.toInt - 2 * ((BitVec.intMax w).toInt + 1)) ∨
      (x.toInt + y.toInt < (BitVec.intMin w).toInt ∧
        (x + y).toInt = x.toInt + y.toInt + 2 * ((BitVec.intMax w).toInt + 1)) := by
  have hmin := toInt_intMin_eq hw
  have hx := intMin_le_toInt hw x
  have hy := intMin_le_toInt hw y
  have hx' := toInt_le_intMax x
  have hy' := toInt_le_intMax y
  have hsize := two_pow_eq hw
  have hadd : (x + y).toInt = (x.toInt + y.toInt).bmod (Nat.pow 2 w) := BitVec.toInt_add x y
  rw [hadd, ← hsize]
  by_cases habove : (BitVec.intMax w).toInt < x.toInt + y.toInt
  · refine .inr (.inl ⟨habove, ?_⟩)
    rw [← Int.sub_bmod_right]
    exact Int.bmod_eq_of_le_mul_two (by omega) (by omega)
  · by_cases hbelow : x.toInt + y.toInt < (BitVec.intMin w).toInt
    · refine .inr (.inr ⟨hbelow, ?_⟩)
      rw [← Int.add_bmod_right]
      exact Int.bmod_eq_of_le_mul_two (by omega) (by omega)
    · exact .inl (Int.bmod_eq_of_le_mul_two (by omega) (by omega))

/-- **The bits tell what is documented.** -/
theorem signs_documented (hw : 1 ≤ w) : (signs w).Documented where
  signed x y := by
    have hx := toInt_le_intMax x
    have hy := toInt_le_intMax y
    have hxy := toInt_le_intMax (x + y)
    have hmin := toInt_intMin_eq hw
    show (!((0#w).slt x && (0#w).slt y) || (0#w).slt (x + y)) = true ↔ _
    simp only [BitVec.slt_eq_decide, BitVec.toInt_zero, Bool.or_eq_true, Bool.not_eq_true',
      Bool.and_eq_false_iff, decide_eq_true_eq, decide_eq_false_iff_not]
    rcases toInt_add_cases hw x y with h | h | h
    · omega
    · omega
    · omega
  unsigned x y := by
    have hx := x.isLt
    have hy := y.isLt
    show (!(x.setWidth (w + 1) + y.setWidth (w + 1)).msb) = true ↔ _
    rw [Bool.not_eq_true', BitVec.msb_eq_decide, decide_eq_false_iff_not, BitVec.toNat_add,
      BitVec.toNat_setWidth_of_le (Nat.le_succ w), BitVec.toNat_setWidth_of_le (Nat.le_succ w),
      BitVec.toNat_allOnes, Nat.add_sub_cancel, Nat.mod_eq_of_lt (by omega)]
    omega
  underflow x y := by
    have hx := intMin_le_toInt hw x
    have hy := intMin_le_toInt hw y
    have hxy := intMin_le_toInt hw (x + y)
    have hmin := toInt_intMin_eq hw
    show (!(x.slt 0#w && y.slt 0#w) || (x + y).slt 0#w) = true ↔ _
    simp only [BitVec.slt_eq_decide, BitVec.toInt_zero, Bool.or_eq_true, Bool.not_eq_true',
      Bool.and_eq_false_iff, decide_eq_true_eq, decide_eq_false_iff_not]
    rcases toInt_add_cases hw x y with h | h | h
    · omega
    · omega
    · omega

end BitAdd

/-! ### The question -/

namespace Overflow

variable {w : Nat}

section

variable {t : BitAdd w} {ty : Ty} {within r left right : IntRange}

/-- Encoding a number of the type loses nothing. -/
theorem number_ofInt (hw : 1 ≤ w) (hty : ty.width? = some w) (hwithin : ty.range? = some within)
    {n : Int} (hn : n ∈ within) : number ty (BitVec.ofInt w n) = n := by
  rcases Ty.width?_eq_some.1 hty with rfl | rfl
  · rw [Ty.range?_int hw, Option.some.injEq] at hwithin
    rw [← hwithin, IntRange.mem_mk, BitVec.toInt_intMin_of_pos hw, BitVec.toInt_intMax] at hn
    exact BitVec.toInt_ofInt_eq_self hw hn.1 (by omega)
  · rw [Ty.range?_uint, Option.some.injEq] at hwithin
    rw [← hwithin, IntRange.mem_mk, BitVec.toNat_allOnes] at hn
    have hpos := Nat.two_pow_pos w
    show ((BitVec.ofInt w n).toNat : Int) = n
    rw [BitVec.toNat_ofInt, Int.emod_eq_of_lt hn.1 (by omega)]
    exact Int.toNat_of_nonneg hn.1

/-- The order of vectors is that of the numbers they are read as. -/
theorem between_eq (ty : Ty) (r : IntRange) (x : BitVec w) :
    between ty r x = true ↔
      number ty (BitVec.ofInt w r.min) ≤ number ty x ∧
        number ty x ≤ number ty (BitVec.ofInt w r.max) := by
  unfold between number
  split
  · rw [Bool.and_eq_true, BitVec.sle_iff_toInt_le, BitVec.sle_iff_toInt_le]
  · rw [Bool.and_eq_true, BitVec.ule_eq_decide, BitVec.ule_eq_decide, decide_eq_true_eq,
      decide_eq_true_eq, Int.ofNat_le, Int.ofNat_le]

theorem between_iff (hw : 1 ≤ w) (hty : ty.width? = some w) (hwithin : ty.range? = some within)
    (hr : r.IsIn within) {x : BitVec w} : between ty r x = true ↔ number ty x ∈ r := by
  rw [between_eq, number_ofInt hw hty hwithin hr.ends.1, number_ofInt hw hty hwithin hr.ends.2,
    IntRange.mem_iff]

theorem leaves_iff (hw : 1 ≤ w) (ht : t.Documented) (hty : ty.width? = some w)
    (hwithin : ty.range? = some within) {x y : BitVec w} :
    leaves t ty x y = true ↔ number ty x + number ty y ∉ within := by
  rcases Ty.width?_eq_some.1 hty with rfl | rfl
  · rw [Ty.range?_int hw, Option.some.injEq] at hwithin
    have habove := ht.signed x y
    have hbelow := ht.underflow x y
    show (!t.noOverflow true x y || !t.noUnderflow x y) = true ↔ x.toInt + y.toInt ∉ within
    rw [Bool.or_eq_true, Bool.not_eq_true', Bool.not_eq_true', Bool.eq_false_iff,
      Bool.eq_false_iff, Ne, Ne, habove, hbelow, ← hwithin, IntRange.mem_mk, not_and_or, or_comm]
  · rw [Ty.range?_uint, Option.some.injEq] at hwithin
    have habove := ht.unsigned x y
    show (!t.noOverflow false x y) = true ↔ (x.toNat : Int) + y.toNat ∉ within
    rw [Bool.not_eq_true', Bool.eq_false_iff, Ne, habove, ← hwithin, IntRange.mem_mk]
    omega

/-- **The vectors that answer the question are the integers that overflow**, for ranges within the
type. -/
theorem query_iff (hw : 1 ≤ w) (ht : t.Documented) (hty : ty.width? = some w)
    (hwithin : ty.range? = some within) (hleft : left.IsIn within) (hright : right.IsIn within)
    {x y : BitVec w} :
    query t ty left right x y = true ↔
      number ty x ∈ left ∧ number ty y ∈ right ∧ number ty x + number ty y ∉ within := by
  rw [query, Bool.and_eq_true, Bool.and_eq_true, between_iff hw hty hwithin hleft,
    between_iff hw hty hwithin hright, leaves_iff hw ht hty hwithin, and_assoc]

/-- Integers that overflow are encoded by vectors that answer the question. -/
theorem query_ofInt (hw : 1 ≤ w) (ht : t.Documented) (hty : ty.width? = some w)
    (hwithin : ty.range? = some within) (hleft : left.IsIn within) (hright : right.IsIn within)
    {m n : Int} (hm : m ∈ left) (hn : n ∈ right) (hsum : m + n ∉ within) :
    query t ty left right (BitVec.ofInt w m) (BitVec.ofInt w n) = true := by
  rw [query_iff hw ht hty hwithin hleft hright, number_ofInt hw hty hwithin (hleft.mem hm),
    number_ofInt hw hty hwithin (hright.mem hn)]
  exact ⟨hm, hn, hsum⟩

/-- The question has an answer if there are integers that overflow. -/
theorem exists_query_iff (hw : 1 ≤ w) (ht : t.Documented) (hty : ty.width? = some w)
    (hwithin : ty.range? = some within) (hleft : left.IsIn within)
    (hright : right.IsIn within) :
    (∃ x y, query t ty left right x y = true) ↔ ∃ m ∈ left, ∃ n ∈ right, m + n ∉ within := by
  constructor
  · intro h
    obtain ⟨x, y, h⟩ := h
    rw [query_iff hw ht hty hwithin hleft hright] at h
    exact ⟨number ty x, h.1, number ty y, h.2.1, h.2.2⟩
  · intro h
    obtain ⟨m, hm, n, hn, hsum⟩ := h
    exact ⟨_, _, query_ofInt hw ht hty hwithin hleft hright hm hn hsum⟩

end

end Overflow

/-! ### Cut ranges -/

/-- An integer of a range that lies in an interval lies in what is cut from it. -/
theorem Interval.clamp_contains {i : Interval} {within : IntRange} {n : Int}
    (h : i.contains n = true) (hn : n ∈ within) : n ∈ i.clamp within := by
  obtain ⟨lower, upper⟩ := i
  obtain ⟨hlower, hupper⟩ := Interval.contains_iff.1 h
  obtain ⟨hmin, hmax⟩ := hn
  constructor
  · cases lower with
    | negInf => exact hmin
    | fin k => exact Int.max_le.2 ⟨hmin, Bound.fin_le_fin k n |>.1 hlower⟩
    | posInf => exact hmin
  · cases upper with
    | negInf => exact hmax
    | fin k => exact Int.le_min.2 ⟨hmax, Bound.fin_le_fin n k |>.1 hupper⟩
    | posInf => exact hmax

/-! ### Correct solvers -/

/-- Two vectors are what a question asks for, as a solver's predicates tell. -/
def Question.Holds (q : Question) (t : BitAdd q.width) (x y : BitVec q.width) : Prop :=
  Overflow.query t q.ty q.left q.right x y = true

/-- Two vectors are what a question asks for if they are integers of its ranges whose sum leaves the
type. -/
theorem Question.holds_iff (q : Question) {t : BitAdd q.width} (ht : t.Documented)
    {x y : BitVec q.width} : q.Holds t x y ↔
      Overflow.number q.ty x ∈ q.left ∧ Overflow.number q.ty y ∈ q.right ∧
        Overflow.number q.ty x + Overflow.number q.ty y ∉ q.within :=
  Overflow.query_iff q.pos ht q.width_eq q.within_eq q.left_isIn q.right_isIn

theorem Question.holds_ofInt (q : Question) {t : BitAdd q.width} (ht : t.Documented) {m n : Int}
    (hm : m ∈ q.left) (hn : n ∈ q.right) (hsum : m + n ∉ q.within) :
    q.Holds t (.ofInt q.width m) (.ofInt q.width n) :=
  Overflow.query_ofInt q.pos ht q.width_eq q.within_eq q.left_isIn q.right_isIn hm hn hsum

namespace Solver

/-- No answer of a solver is wrong: its predicates mean what is documented, the vectors that it
answers with are what was asked for, and where it says that there are none, there are none. -/
structure Correct (s : Solver) : Prop where
  documented : ∀ {w : Nat}, 0 < w → (s.predicates w).Documented
  sat : ∀ {timeoutMs : Int} {q : Question} {x y : BitVec q.width},
    s.answer timeoutMs q = .sat x y → q.Holds (s.predicates q.width) x y
  unsat : ∀ {timeoutMs : Int} {q : Question}, s.answer timeoutMs q = .unsat →
    ∀ x y, ¬q.Holds (s.predicates q.width) x y

/-- A solver answers every question in a time. -/
def Decides (s : Solver) (timeoutMs : Int) : Prop :=
  ∀ q, s.answer timeoutMs q ≠ .unknown

namespace Correct

variable {s : Solver} {timeoutMs : Int} {q : Question}

theorem number_of_sat (h : s.Correct) {x y : BitVec q.width}
    (hanswer : s.answer timeoutMs q = .sat x y) :
    Overflow.number q.ty x ∈ q.left ∧ Overflow.number q.ty y ∈ q.right ∧
      Overflow.number q.ty x + Overflow.number q.ty y ∉ q.within :=
  (q.holds_iff (h.documented q.pos)).1 (h.sat hanswer)

theorem add_mem_of_unsat (h : s.Correct) (hanswer : s.answer timeoutMs q = .unsat) {m n : Int}
    (hm : m ∈ q.left) (hn : n ∈ q.right) : m + n ∈ q.within := by
  by_contra hsum
  exact h.unsat hanswer _ _ (q.holds_ofInt (h.documented q.pos) hm hn hsum)

end Correct

/-- **The ends of the ranges are enough.**  If any sum leaves the type, then that of the greatest or
that of the least integers does. -/
theorem ends_correct : ends.Correct where
  documented := BitAdd.signs_documented
  sat := by
    intro _ q x y h
    have hdoc := BitAdd.signs_documented q.pos
    have hl : q.left.min ≤ q.left.max := q.left_isIn.2.1
    have hr : q.right.min ≤ q.right.max := q.right_isIn.2.1
    simp only [ends] at h
    split at h
    · cases h
      apply q.holds_ofInt hdoc ⟨hl, Int.le_refl _⟩ ⟨hr, Int.le_refl _⟩
      rw [IntRange.mem_iff]
      omega
    · split at h
      · cases h
        apply q.holds_ofInt hdoc ⟨Int.le_refl _, hl⟩ ⟨Int.le_refl _, hr⟩
        rw [IntRange.mem_iff]
        omega
      · cases h
  unsat := by
    intro _ q h x y hholds
    have hnumbers := (q.holds_iff (BitAdd.signs_documented q.pos)).1 hholds
    simp only [IntRange.mem_iff] at hnumbers
    simp only [ends] at h
    split at h
    · cases h
    · split at h
      · cases h
      · omega

theorem ends_decides (timeoutMs : Int) : ends.Decides timeoutMs := by
  intro q h
  simp only [ends] at h
  split at h
  · cases h
  · split at h <;> cases h

end Solver

/-! ### Verdicts -/

/-- The question is about an addition of two intervals at a type. -/
structure Question.Adds (q : Question) (ty : Ty) (i j : Interval) : Prop where
  ty_eq : q.ty = ty
  left_eq : q.left = i.clamp q.within
  right_eq : q.right = j.clamp q.within

theorem Answer.eq_sat_of_verdict {w : Nat} {a : Answer w} {ty : Ty} {witness : Members}
    (h : a.verdict ty = .possible witness) :
    ∃ x y, a = .sat x y ∧ witness = [("left", .int (Overflow.number ty x)),
      ("right", .int (Overflow.number ty y))] := by
  cases a with
  | sat x y => exact ⟨x, y, rfl, (Overflow.Verdict.possible.inj h).symm⟩
  | unsat => cases h
  | unknown => cases h

theorem Answer.eq_unknown_of_verdict {w : Nat} {a : Answer w} {ty : Ty}
    (h : a.verdict ty = .undecided) : a = .unknown := by
  cases a with
  | sat x y => cases h
  | unsat => cases h
  | unknown => rfl

theorem Answer.verdict_ne_notAsked {w : Nat} {a : Answer w} {ty : Ty} :
    a.verdict ty ≠ .notAsked := by
  cases a <;> nofun

theorem Question.Adds.range?_eq {q : Question} {ty : Ty} {i j : Interval} (h : q.Adds ty i j) :
    ty.range? = some q.within := by
  rw [← h.ty_eq]
  exact q.within_eq

namespace Solver

variable {s : Solver} {timeoutMs : Int} {ty : Ty} {within : IntRange} {i j : Interval}

/-- **All that can come of an addition of intervals.**  It is asked about, unless the type is not
one of integers or has no bits, or a cut range is empty. -/
theorem decideAdd_cases (s : Solver) (timeoutMs : Int) (ty : Ty) (i j : Interval) :
    (s.decideAdd timeoutMs ty i j = .notAsked ∧ ty.range? = none) ∨
      (s.decideAdd timeoutMs ty i j = .noOperands ∧ ∃ within, ty.range? = some within ∧
        ¬((∃ m, m ∈ i.clamp within) ∧ ∃ n, n ∈ j.clamp within)) ∨
      (s.decideAdd timeoutMs ty i j = .undecided ∧ ty.width? = some 0) ∨
      ∃ q : Question, q.Adds ty i j ∧
        s.decideAdd timeoutMs ty i j = (s.answer timeoutMs q).verdict ty := by
  unfold decideAdd
  split
  · rename_i width within hwidth hwithin
    split
    · split
      · split
        · exact .inr (.inr (.inr ⟨_, ⟨rfl, rfl, rfl⟩, rfl⟩))
        · rename_i hzero
          obtain rfl : width = 0 := Nat.eq_zero_of_not_pos hzero
          exact .inr (.inr (.inl ⟨rfl, hwidth⟩))
      · rename_i hempty
        refine .inr (.inl ⟨rfl, within, hwithin, ?_⟩)
        intro h
        obtain ⟨-, n, hn⟩ := h
        exact hempty (Int.le_trans hn.1 hn.2)
    · rename_i hempty
      refine .inr (.inl ⟨rfl, within, hwithin, ?_⟩)
      intro h
      obtain ⟨⟨m, hm⟩, -⟩ := h
      exact hempty (Int.le_trans hm.1 hm.2)
  · rename_i hnone
    refine .inl ⟨rfl, Option.eq_none_iff_forall_ne_some.2 ?_⟩
    intro within hwithin
    obtain ⟨width, hwidth⟩ := Ty.exists_width?_of_range? hwithin
    exact hnone width within hwidth hwithin

namespace Correct

/-- **No overflow is lost by cutting down and asking.**  If integers of the cut intervals have a sum
that leaves the type, the addition is reported. -/
theorem isAlarm_of_overflow (h : s.Correct) (hwithin : ty.range? = some within) {m n : Int}
    (hm : m ∈ i.clamp within) (hn : n ∈ j.clamp within) (hsum : m + n ∉ within) :
    (s.decideAdd timeoutMs ty i j).isAlarm = true := by
  rcases s.decideAdd_cases timeoutMs ty i j with ⟨-, hnone⟩ | ⟨-, within', hwithin', hempty⟩ |
    ⟨hverdict, -⟩ | ⟨q, hq, hverdict⟩
  · cases hnone.symm.trans hwithin
  · obtain rfl : within' = within := Option.some.inj (hwithin'.symm.trans hwithin)
    exact absurd ⟨⟨m, hm⟩, n, hn⟩ hempty
  · rw [hverdict]
    rfl
  · obtain rfl : q.within = within := Option.some.inj (hq.range?_eq.symm.trans hwithin)
    rw [hverdict]
    cases hanswer : s.answer timeoutMs q with
    | sat x y => rfl
    | unsat =>
      have hin := h.add_mem_of_unsat hanswer (hq.left_eq ▸ hm) (hq.right_eq ▸ hn)
      exact absurd hin hsum
    | unknown => rfl

/-- **Operands that are named overflow.**  They lie in the cut intervals, and their sum leaves the
type. -/
theorem overflow_of_possible (h : s.Correct) {witness : Members}
    (hverdict : s.decideAdd timeoutMs ty i j = .possible witness) :
    ∃ within m n, ty.range? = some within ∧ m ∈ i.clamp within ∧ n ∈ j.clamp within ∧
      m + n ∉ within ∧ witness = [("left", .int m), ("right", .int n)] := by
  rcases s.decideAdd_cases timeoutMs ty i j with ⟨hcase, -⟩ | ⟨hcase, -⟩ | ⟨hcase, -⟩ |
    ⟨q, hq, hcase⟩
  · cases hcase.symm.trans hverdict
  · cases hcase.symm.trans hverdict
  · cases hcase.symm.trans hverdict
  · obtain ⟨x, y, hanswer, hwitness⟩ := Answer.eq_sat_of_verdict (hcase.symm.trans hverdict)
    obtain ⟨hx, hy, hsum⟩ := h.number_of_sat hanswer
    rw [hq.ty_eq] at hx hy hsum
    exact ⟨q.within, _, _, hq.range?_eq, hq.left_eq ▸ hx, hq.right_eq ▸ hy, hsum, hwitness⟩

end Correct

/-- A solver that answers all questions decides on all additions of vectors with bits. -/
theorem Decides.ne_undecided (h : s.Decides timeoutMs) {w : Nat} (hw : 1 ≤ w)
    (hty : ty.width? = some w) : s.decideAdd timeoutMs ty i j ≠ .undecided := by
  intro hverdict
  rcases s.decideAdd_cases timeoutMs ty i j with ⟨hcase, -⟩ | ⟨hcase, -⟩ | ⟨-, hzero⟩ |
    ⟨q, -, hcase⟩
  · cases hcase.symm.trans hverdict
  · cases hcase.symm.trans hverdict
  · have hwidth : w = 0 := Option.some.inj (hty.symm.trans hzero)
    omega
  · exact h q (Answer.eq_unknown_of_verdict (hcase.symm.trans hverdict))

/-- Additions of integers are those of their intervals. -/
theorem verdict_eq {c : CheckedOp} (hop : c.op = .add) (hi : c.left.interval? = some i)
    (hj : c.right.interval? = some j) :
    s.verdict timeoutMs c = s.decideAdd timeoutMs c.ty i j := by
  rw [verdict, hop, hi, hj]

/-- Operands are named for additions of integers only. -/
theorem exists_decideAdd_of_possible {c : CheckedOp} {witness : Members}
    (h : s.verdict timeoutMs c = .possible witness) :
    ∃ i j, c.left.interval? = some i ∧ c.right.interval? = some j ∧
      s.decideAdd timeoutMs c.ty i j = .possible witness := by
  unfold verdict at h
  split at h
  · rename_i i j _ hi hj
    exact ⟨i, j, hi, hj, h⟩
  · cases h

end Solver

/-! ### What is reported -/

namespace Overflow

section

variable {judge : CheckedOp → Verdict} {function : String} {c : CheckedOp}

theorem exists_check_iff :
    (∃ d, check judge function c = some d) ↔ (judge c).isAlarm = true := by
  unfold check
  cases judge c <;> simp [Verdict.isAlarm]

/-- A report says where the operation is, and either names what the verdict names or that there was
no decision. -/
theorem check_cases {d : Diagnostic} (h : check judge function c = some d) :
    d.location = c.location.text ∧
      ((judge c = .possible d.witness ∧ d.inconclusive = false) ∨
        (judge c = .undecided ∧ d.inconclusive = true)) := by
  unfold check at h
  split at h
  · rename_i witness hverdict
    rw [← Option.some.inj h]
    exact ⟨rfl, .inl ⟨hverdict, rfl⟩⟩
  · rename_i hverdict
    rw [← Option.some.inj h]
    exact ⟨rfl, .inr ⟨hverdict, rfl⟩⟩
  · cases h
  · cases h
  · cases h

theorem possible_of_check {d : Diagnostic} (h : check judge function c = some d)
    (hdecided : d.inconclusive = false) : judge c = .possible d.witness := by
  rcases (check_cases h).2 with ⟨hverdict, -⟩ | ⟨-, hopen⟩
  · exact hverdict
  · cases hdecided.symm.trans hopen

end

/-- **The question about bit vectors is the one about integers.**  Let an integer type have a width
of at least one bit, let two intervals be cut down to its range and not be empty then, and let a
solver's predicates mean what is documented.

* There are vectors that answer the question exactly if integers of the two cut intervals have a sum
  outside the range, and exactly if the greatest ones or the least ones have.
* Vectors that answer it, read as numbers of the type, are such integers.
* Let a correct solver be asked about a checked addition of such operands.  If there are vectors
  that answer the question, the addition is reported.  A report that is not marked as undecided
  names the numbers of such vectors.  If the solver answers all questions, there are no other
  reports, so that the addition is reported exactly if there are such vectors. -/
theorem query_means_overflow {w : Nat} (hw : 1 ≤ w) {t : BitAdd w} (ht : t.Documented) {ty : Ty}
    (hty : ty.width? = some w) {within : IntRange} (hwithin : ty.range? = some within)
    {i j : Interval} {l r : IntRange} (hi : i.clamp within = l) (hj : j.clamp within = r)
    (hl : l.min ≤ l.max) (hr : r.min ≤ r.max) :
    ((∃ x y, query t ty l r x y = true) ↔ ∃ m ∈ l, ∃ n ∈ r, m + n ∉ within) ∧
    ((∃ x y, query t ty l r x y = true) ↔
      within.max < l.max + r.max ∨ l.min + r.min < within.min) ∧
    (∀ x y, query t ty l r x y = true →
      number ty x ∈ l ∧ number ty y ∈ r ∧ number ty x + number ty y ∉ within) ∧
    ∀ (solver : Solver) timeoutMs function c, solver.Correct → c.op = .add → c.ty = ty →
      c.left.interval? = some i → c.right.interval? = some j →
      ((∃ x y, query t ty l r x y = true) →
        ∃ d, check (solver.verdict timeoutMs) function c = some d) ∧
      (∀ d, check (solver.verdict timeoutMs) function c = some d → d.inconclusive = false →
        ∃ x y, query t ty l r x y = true ∧
          d.witness = [("left", .int (number ty x)), ("right", .int (number ty y))]) ∧
      (solver.Decides timeoutMs →
        (∀ d, check (solver.verdict timeoutMs) function c = some d → d.inconclusive = false) ∧
        ((∃ d, check (solver.verdict timeoutMs) function c = some d) ↔
          ∃ x y, query t ty l r x y = true)) := by
  have hl' : l.IsIn within := hi ▸ Interval.clamp_isIn (hi ▸ hl)
  have hr' : r.IsIn within := hj ▸ Interval.clamp_isIn (hj ▸ hr)
  have hread : ∀ x y, query t ty l r x y = true →
      number ty x ∈ l ∧ number ty y ∈ r ∧ number ty x + number ty y ∉ within :=
    fun x y => (query_iff hw ht hty hwithin hl' hr').1
  have hsums := exists_query_iff hw ht hty hwithin hl' hr'
  refine ⟨hsums, hsums.trans (IntRange.exists_sum_notMem_iff hl hr), hread, ?_⟩
  intro solver timeoutMs function c hsolver hop hcty hleft hright
  have hverdict : solver.verdict timeoutMs c = solver.decideAdd timeoutMs ty i j :=
    hcty ▸ Solver.verdict_eq hop hleft hright
  have hreported : (∃ x y, query t ty l r x y = true) →
      ∃ d, check (solver.verdict timeoutMs) function c = some d := by
    intro h
    obtain ⟨m, hm, n, hn, hsum⟩ := hsums.1 h
    rw [exists_check_iff, hverdict]
    exact hsolver.isAlarm_of_overflow hwithin (hi ▸ hm) (hj ▸ hn) hsum
  have hnamed : ∀ d, check (solver.verdict timeoutMs) function c = some d →
      d.inconclusive = false → ∃ x y, query t ty l r x y = true ∧
        d.witness = [("left", .int (number ty x)), ("right", .int (number ty y))] := by
    intro d hd hdecided
    have hpossible := possible_of_check hd hdecided
    rw [hverdict] at hpossible
    obtain ⟨within', m, n, hwithin', hm, hn, hsum, hwitness⟩ :=
      hsolver.overflow_of_possible hpossible
    obtain rfl : within' = within := Option.some.inj (hwithin'.symm.trans hwithin)
    rw [hi] at hm
    rw [hj] at hn
    refine ⟨_, _, query_ofInt hw ht hty hwithin hl' hr' hm hn hsum, ?_⟩
    rw [number_ofInt hw hty hwithin (hl'.mem hm), number_ofInt hw hty hwithin (hr'.mem hn),
      hwitness]
  refine ⟨hreported, hnamed, ?_⟩
  intro hdecides
  have hdecided : ∀ d, check (solver.verdict timeoutMs) function c = some d →
      d.inconclusive = false := by
    intro d hd
    rcases (check_cases hd).2 with ⟨-, hclosed⟩ | ⟨hopen, -⟩
    · exact hclosed
    · exact absurd (hverdict.symm.trans hopen) (hdecides.ne_undecided hw hty)
  refine ⟨hdecided, ?_, hreported⟩
  intro h
  obtain ⟨d, hd⟩ := h
  obtain ⟨x, y, hxy, -⟩ := hnamed d hd (hdecided d hd)
  exact ⟨x, y, hxy⟩

/-- A checked addition of unknown integers of one bit. -/
def oneBit : CheckedOp where
  location := ⟨0, 0⟩
  op := .add
  left := .int .top
  right := .int .top
  ty := .int 1

/-- Signed integers of one bit are 0 and -1.  The only sum that overflows is that of -1 with itself,
and it is reported with these operands. -/
theorem query_means_overflow_oneBit :
    (BitAdd.signs 1).Documented ∧ Interval.top.clamp ⟨-1, 0⟩ = ⟨-1, 0⟩ ∧
      (∃ x y, query (BitAdd.signs 1) (.int 1) ⟨-1, 0⟩ ⟨-1, 0⟩ x y = true) ∧
      (∀ x y, query (BitAdd.signs 1) (.int 1) ⟨-1, 0⟩ ⟨-1, 0⟩ x y = true →
        number (.int 1) x = -1 ∧ number (.int 1) y = -1) ∧
      ∃ d, check (Solver.ends.verdict 10000) "f" oneBit = some d ∧ d.inconclusive = false ∧
        d.witness = [("left", .int (-1)), ("right", .int (-1))] := by
  have hdoc : (BitAdd.signs 1).Documented := BitAdd.signs_documented (Nat.le_refl 1)
  have hwidth : (Ty.int 1).width? = some 1 := rfl
  have hrange : (Ty.int 1).range? = some ⟨-1, 0⟩ := rfl
  have hcut : Interval.top.clamp ⟨-1, 0⟩ = ⟨-1, 0⟩ := rfl
  obtain ⟨-, hends, hread, hreport⟩ := query_means_overflow (Nat.le_refl 1) hdoc hwidth hrange
    hcut hcut (by decide) (by decide)
  have hminus : ∀ x y, query (BitAdd.signs 1) (.int 1) ⟨-1, 0⟩ ⟨-1, 0⟩ x y = true →
      number (.int 1) x = -1 ∧ number (.int 1) y = -1 := by
    intro x y hquery
    obtain ⟨hx, hy, hsum⟩ := hread x y hquery
    rw [IntRange.mem_mk] at hx hy hsum
    omega
  have hsome := hends.2 (.inr (by decide))
  obtain ⟨hreported, hnamed, hdecided⟩ :=
    hreport Solver.ends 10000 "f" oneBit Solver.ends_correct rfl rfl rfl rfl
  obtain ⟨d, hd⟩ := hreported hsome
  have hclosed := (hdecided (Solver.ends_decides 10000)).1 d hd
  obtain ⟨x, y, hxy, hwitness⟩ := hnamed d hd hclosed
  rw [(hminus x y hxy).1, (hminus x y hxy).2] at hwitness
  exact ⟨hdoc, hcut, hsome, hminus, d, hd, hclosed, hwitness⟩

end Overflow

end MirRange
