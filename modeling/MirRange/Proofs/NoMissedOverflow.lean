import MirRange.Proofs.OverflowQuery
import MirRange.Proofs.Soundness

/-!
# No overflow is missed

An abstract run adds intervals as if integers had no ends, so after an addition that wraps around it
says nothing about an execution at fixed width.  Up to the first such addition it covers the
execution, and therefore knows operands from which that addition can be told to overflow.

All this holds of every solver that gives no wrong answer; it need not answer all questions.

* `Solver.Correct.isAlarm_of_contains`: operands of the type in the observed intervals whose sum
  leaves the type make an observation one that is reported.
* `Statement.exists_alarm_of_overflows`: a checked addition that overflows in a covered store is
  observed as one that is reported.
* `Body.overflow_reported`: the first overflow of an execution is reported with its location; and if
  nothing is reported and all additions are checked, nothing overflows.
-/

namespace MirRange

/-! ### The verdict on an addition -/

/-- **No overflow is lost by asking.**  Two integers of a type that lie in the observed intervals,
and whose sum leaves the type, make an addition one that is reported. -/
theorem Solver.Correct.isAlarm_of_contains {s : Solver} (h : s.Correct) {timeoutMs : Int}
    {c : CheckedOp} (hop : c.op = .add) {i j : Interval} (hi : c.left.interval? = some i)
    (hj : c.right.interval? = some j) {within : IntRange} (hwithin : c.ty.range? = some within)
    {m n : Int} (hm : i.contains m = true) (hn : j.contains n = true) (hm' : m ∈ within)
    (hn' : n ∈ within) (hsum : m + n ∉ within) : (s.verdict timeoutMs c).isAlarm = true := by
  rw [verdict_eq hop hi hj]
  exact h.isAlarm_of_overflow hwithin (Interval.clamp_contains hm hm')
    (Interval.clamp_contains hn hn') hsum

/-- An observation that is reported is so with its location. -/
theorem Overflow.exists_diagnostic {judge : CheckedOp → Verdict} (function : String)
    {cs : List CheckedOp} {c : CheckedOp} (hc : c ∈ cs) (halarm : (judge c).isAlarm = true) :
    ∃ d ∈ checkAll judge function cs, d.location = c.location.text := by
  obtain ⟨d, hd⟩ : ∃ d, check judge function c = some d := exists_check_iff.2 halarm
  exact ⟨d, List.mem_filterMap.2 ⟨c, hc, hd⟩, (check_cases hd).1⟩

/-! ### Additions in a covered store -/

/-- An integer that is a datum of a type is within its range. -/
theorem Datum.in_range_of_hasTy {m : Int} {ty : Ty} {within : IntRange}
    (h : (Datum.int m).hasTy .fixedWidth ty = true) (hrange : ty.range? = some within) :
    m ∈ within := by
  have hin : ¬ty.excludes m = true := by
    rw [Bool.not_eq_true, ← Bool.not_eq_true']
    cases ty <;> first | exact h | cases hrange
  have hin' : ¬(m < within.min ∨ within.max < m) :=
    fun hout => hin (Ty.excludes_iff.2 ⟨within, hrange, hout⟩)
  rw [IntRange.mem_iff]
  omega

section

variable {b : Body} {s : State} {σ : Store}

/-- A statement that does not overflow adds exactly at fixed width. -/
theorem Statement.addsExactly_of_not_overflows {stmt : Statement} (h : ¬stmt.Overflows b σ) :
    stmt.AddsExactly .fixedWidth b σ := by
  intro ty m n hadds
  have hin : ty.excludes (m + n) = false := by
    rw [Bool.eq_false_iff]
    exact fun hout => h ⟨ty, m, n, hadds, hout⟩
  exact ⟨Ty.wrap_of_not_excluded hin, hin⟩

theorem Statement.exactWhere_of_not_overflows {checked : List CheckedOp} (stmt : Statement) :
    stmt.ExactWhere .fixedWidth b (fun σ stmt => ¬stmt.Overflows b σ) checked := by
  intro s σ loc e _ hin _ _ _
  exact Statement.addsExactly_of_not_overflows hin

/-- What is observed in a checked operation without a fault. -/
theorem Statement.observed_of_checked {p : Place} {op : BinOp} {left right : Operand}
    {loc : Location} {e : Effect}
    (h : Statement.run b loc s (.assign p (.checked op left right)) = .ok e)
    (hf : e.fault = none) :
    ∃ l r w ty, op.eval s left right = .ok (l, r, w) ∧ b.operandTy left = .ok ty ∧
      e.observed = some ⟨loc, op, l, r, ty⟩ := by
  rcases Statement.run_eq_ok h with ⟨_, _, v, observed, hassign, hrv, rfl⟩ | ⟨_, hdeinit, -⟩ |
    ⟨f, rfl⟩
  · cases hassign
    rcases Rvalue.eval_eq_ok hrv with ⟨_, huse, -⟩ | ⟨_, _, _, _, _, hbinary, -⟩ |
      ⟨_, _, _, l, r, w, ty, hchecked, hop, hty, -, rfl⟩
    · cases huse
    · cases hbinary
    · cases hchecked
      exact ⟨l, r, w, ty, hop, hty, State.store_observed ..⟩
  · cases hdeinit
  · cases hf

/-- **A checked addition that overflows is observed as one that is reported**: its operands lie in
the observed intervals and in the range of their type. -/
theorem Statement.exists_alarm_of_overflows {solver : Solver} (hsolver : solver.Correct)
    (timeoutMs : Int) {p : Place} {left right : Operand} {loc : Location} {e : Effect}
    (hstmt : Statement.WellTyped b (.assign p (.checked .add left right)))
    (hs : s.Covers .fixedWidth b σ)
    (h : Statement.run b loc s (.assign p (.checked .add left right)) = .ok e)
    (hf : e.fault = none)
    (hover : Statement.Overflows b σ (.assign p (.checked .add left right))) :
    ∃ c, e.observed = some c ∧ c.location = loc ∧
      (solver.verdict timeoutMs c).isAlarm = true := by
  obtain ⟨l, r, w, ty, hop, hty, hobserved⟩ := Statement.observed_of_checked h hf
  refine ⟨_, hobserved, rfl, ?_⟩
  obtain ⟨t, m, n, hadds, hout⟩ := hover
  obtain ⟨-, -, -, t', _, ht', hright, -, -⟩ := hstmt
  obtain rfl : ty = t' := Except.ok.inj (hty.symm.trans ht')
  cases hadds with
  | checked hleft hm hn =>
    obtain rfl : ty = t := Except.ok.inj (hty.symm.trans hleft)
    obtain ⟨within, hrange, hout'⟩ := Ty.excludes_iff.1 hout
    have hsum : m + n ∉ within := by
      rw [IntRange.mem_iff]
      omega
    have hmin := Datum.in_range_of_hasTy (Operand.datum?_hasTy hs.typed hleft hm) hrange
    have hnin := Datum.in_range_of_hasTy (Operand.datum?_hasTy hs.typed hright hn) hrange
    obtain ⟨hl, hr, hw⟩ := BinOp.eval_eq_ok.1 hop
    obtain ⟨x, hx, hlx⟩ := Operand.eval_admits hs hl
    obtain ⟨y, hy, hry⟩ := Operand.eval_admits hs hr
    obtain rfl : x = .int m := Option.some.inj (hx.symm.trans hm)
    obtain rfl : y = .int n := Option.some.inj (hy.symm.trans hn)
    cases BinOp.applies_of_apply hw with
    | addInt i j => exact hsolver.isAlarm_of_contains rfl rfl rfl hrange hlx hry hmin hnin hsum
    | addUint i j => exact hsolver.isAlarm_of_contains rfl rfl rfl hrange hlx hry hmin hnin hsum

/-- A checked operation that does not overflow gives a flag that is not raised. -/
theorem Rvalue.Gives.flag_false {p : Place} {op : BinOp} {left right : Operand} {d : Datum}
    (h : Rvalue.Gives .fixedWidth b σ (.checked op left right) d)
    (hexact : Statement.AddsExactly .fixedWidth b σ (.assign p (.checked op left right))) :
    ∃ result, d = .tuple [result, .bool false] := by
  cases h with
  | @checked _ _ _ ty l r result hty hl hr hd =>
    have hflag : op.flag .fixedWidth ty l r = false := by
      unfold BinOp.flag
      split
      · exact (hexact _ _ _ (.checked hty hl hr)).2
      · rfl
    exact ⟨result, by rw [hflag]⟩

end

/-! ### Executions at fixed width -/

/-- All additions of a body are checked. -/
def Body.AddsChecked (b : Body) : Prop :=
  ∀ stmts ∈ b.blocks, ∀ p left right, Statement.assign p (.binary .add left right) ∉ stmts

namespace Body

variable {b : Body} {args : List Value} {σ : Store} {r : Run}

/-- If nothing is reported and all additions are checked, no statement of the body overflows where
the run covers. -/
theorem not_overflows_of_not_reported (hb : b.WellTyped) {solver : Solver}
    (hsolver : solver.Correct) {timeoutMs : Int} {function : String}
    (hnone : Overflow.checkAll (solver.verdict timeoutMs) function r.checked = [])
    (hchecked : b.AddsChecked) {stmts : List Statement} (hstmts : stmts ∈ b.blocks)
    {stmt : Statement} (hstmt : stmt ∈ stmts) {s : State} (hs : s.Covers .fixedWidth b σ)
    {loc : Location} {e : Effect} (he : stmt.run b loc s = .ok e) (hf : e.fault = none)
    (hobserved : e.observed.toList ⊆ r.checked) : ¬stmt.Overflows b σ := by
  rintro ⟨ty, m, n, hadds, hout⟩
  cases hadds with
  | binary _ _ _ => exact hchecked stmts hstmts _ _ _ hstmt
  | checked hleft hm hn =>
    obtain ⟨c, hc, -, halarm⟩ := Statement.exists_alarm_of_overflows hsolver timeoutMs
      (hb stmts hstmts _ hstmt) hs he hf ⟨ty, m, n, .checked hleft hm hn, hout⟩
    have hmem : c ∈ r.checked := hobserved (by rw [hc]; exact List.mem_singleton.2 rfl)
    obtain ⟨d, hd, -⟩ := Overflow.exists_diagnostic function hmem halarm
    rw [hnone] at hd
    cases hd

/-- **No overflow is missed.**  Let a well-typed body be run on accepted arguments without faults,
let a store hold data of the declared types, within their ranges, and in the argument locals data
that the arguments stand for, and let a correct solver be asked about what is observed.

* If an execution at fixed width comes to a checked addition without an overflow on the way, and
  this addition overflows, then a diagnostic with its location is returned.
* If no diagnostic is returned and all additions are checked, then no statement that an execution
  comes to overflows, no checked operation raises its flag, the body can be executed, and the state
  of the run covers every store reached at the end. -/
theorem overflow_reported (hb : b.WellTyped) (h : b.interpret args = .ok r) (hr : r.faults = [])
    (hσ : σ.Typed .fixedWidth b) (hargs : σ.Matches args) {solver : Solver}
    (hsolver : solver.Correct) (timeoutMs : Int) (function : String) :
    (∀ loc p left right σ',
      b.statementAt? loc = some (.assign p (.checked .add left right)) →
      b.ExecutesInRange σ (b.upTo loc).flatten σ' →
      Statement.Overflows b σ' (.assign p (.checked .add left right)) →
      ∃ d ∈ Overflow.checkAll (solver.verdict timeoutMs) function r.checked,
        d.location = loc.text) ∧
    (Overflow.checkAll (solver.verdict timeoutMs) function r.checked = [] → b.AddsChecked →
      (∀ loc stmt σ', b.statementAt? loc = some stmt →
        b.Executes .fixedWidth σ (b.upTo loc).flatten σ' →
        ¬stmt.Overflows b σ' ∧
        ∀ p op left right d, stmt = .assign p (.checked op left right) →
          Rvalue.Gives .fixedWidth b σ' (.checked op left right) d →
          ∃ result, d = .tuple [result, .bool false]) ∧
      (∃ σ', b.Executes .fixedWidth σ b.blocks.flatten σ') ∧
      ∀ σ', b.Executes .fixedWidth σ b.blocks.flatten σ' → r.state.Covers .fixedWidth b σ') := by
  constructor
  · intro loc p left right σ' hloc hexec hover
    obtain ⟨stmts, hstmts, hstmt⟩ := mem_of_statementAt? hloc
    obtain ⟨s, e, hs, he, hf, hobserved⟩ := exists_covered_of_executes hb h hr hσ hargs
      (fun _ _ stmt _ => stmt.exactWhere_of_not_overflows) hloc hexec
    obtain ⟨c, hc, rfl, halarm⟩ := Statement.exists_alarm_of_overflows hsolver timeoutMs
      (hb stmts hstmts _ hstmt) hs he hf hover
    have hmem : c ∈ r.checked := hobserved (by rw [hc]; exact List.mem_singleton.2 rfl)
    exact Overflow.exists_diagnostic function hmem halarm
  · intro hnone hchecked
    have hexact : ∀ stmts ∈ b.blocks, ∀ stmt ∈ stmts,
        stmt.ExactWhere .fixedWidth b (fun _ _ => True) r.checked := by
      intro stmts hstmts stmt hstmt s σ loc e hs _ he hf hobserved
      exact Statement.addsExactly_of_not_overflows
        (not_overflows_of_not_reported hb hsolver hnone hchecked hstmts hstmt hs he hf hobserved)
    have hsim := simulates_of_interpret hb h hr hσ hargs hexact
    refine ⟨?_, hsim.progress fun _ _ => trivial, hsim.covers⟩
    intro loc stmt σ' hloc hexec
    obtain ⟨stmts, hstmts, hstmt⟩ := mem_of_statementAt? hloc
    obtain ⟨s, e, hs, he, hf, hobserved⟩ :=
      exists_covered_of_executes hb h hr hσ hargs hexact hloc hexec
    have hover :=
      not_overflows_of_not_reported hb hsolver hnone hchecked hstmts hstmt hs he hf hobserved
    refine ⟨hover, ?_⟩
    rintro p op left right d rfl hgives
    exact hgives.flag_false (Statement.addsExactly_of_not_overflows hover)

theorem refillStore_typed {m : Int} (hm : (Ty.uint 8).excludes m = false) :
    (refillStore m).Typed .fixedWidth refill := by
  have hfirst : (Datum.int m).hasTy .fixedWidth (.uint 8) = true := (Bool.not_eq_true' _).mpr hm
  exact Store.typed_ofData (.cons (by decide) (.cons hfirst (.cons (by decide)
    (.cons (by decide) .nil))))

theorem refill_addsChecked : refill.AddsChecked := by
  intro stmts hstmts p left right hmem
  rcases List.mem_cons.1 hstmts with rfl | hstmts
  · simp at hmem
  · obtain rfl := List.mem_singleton.1 hstmts
    simp at hmem

/-- The sum 200 + 60 is reported where it overflows.  If the first argument is at most 195, nothing
is reported, and the execution that adds 195 + 60 is covered. -/
theorem overflow_reported_refill :
    (∃ r σ', refill.interpret (refillArgs 200) = .ok r ∧ r.faults = [] ∧
      refill.ExecutesInRange (refillStore 200) (refill.upTo ⟨1, 0⟩).flatten σ' ∧
      ∃ d ∈ Overflow.checkAll (Solver.ends.verdict 10000) "refill" r.checked,
        d.location = "bb1[0]") ∧
    ∃ r σ', refill.interpret (refillArgs 195) = .ok r ∧ r.faults = [] ∧
      Overflow.checkAll (Solver.ends.verdict 10000) "refill" r.checked = [] ∧
      refill.Executes .fixedWidth (refillStore 195) refill.blocks.flatten σ' ∧
      r.state.Covers .fixedWidth refill σ' := by
  constructor
  · obtain ⟨r, hr⟩ : ∃ r, refill.interpret (refillArgs 200) = .ok r := ⟨_, rfl⟩
    have hfaults : r.faults = [] := by
      cases hr
      rfl
    have hsound := overflow_reported refill_wellTyped hr hfaults (refillStore_typed (by decide))
      (refillStore_matches (m := 200) (by decide)) Solver.ends_correct 10000 "refill"
    have hexec : refill.ExecutesInRange (refillStore 200) (refill.upTo ⟨1, 0⟩).flatten _ :=
      .cons nofun (.assign (.use rfl) rfl)
        (.cons nofun (.assign (.binary rfl rfl rfl rfl) rfl)
          (.cons nofun (.deinit (d := .int 7) rfl (by decide) rfl) .nil))
    refine ⟨r, _, hr, hfaults, hexec, ?_⟩
    exact hsound.1 ⟨1, 0⟩ _ _ _ _ rfl hexec ⟨.uint 8, 200, 60, .checked rfl rfl rfl, by decide⟩
  · obtain ⟨r, hr⟩ : ∃ r, refill.interpret (refillArgs 195) = .ok r := ⟨_, rfl⟩
    have hfaults : r.faults = [] := by
      cases hr
      rfl
    have hnone : Overflow.checkAll (Solver.ends.verdict 10000) "refill" r.checked = [] := by
      cases hr
      rfl
    have hsound := (overflow_reported refill_wellTyped hr hfaults (refillStore_typed (by decide))
      (refillStore_matches (m := 195) (by decide)) Solver.ends_correct 10000 "refill").2 hnone
      refill_addsChecked
    obtain ⟨σ', hexec⟩ := hsound.2.1
    exact ⟨r, σ', hr, hfaults, hnone, hexec, hsound.2.2 σ' hexec⟩

end Body

end MirRange
