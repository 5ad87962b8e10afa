import MirRange.Proofs.OverflowQuery
import MirRange.Proofs.Seed
import MirRange.Proofs.Typing

/-!
# Types are preserved over whole runs

A run of a well-typed body binds declared locals only, and each of them to a value of its declared
type with parts that may hold no value.  This is so after any number of statements, whether some of
them had faults or not.  It follows that every operand that can be read has a type, that no observed
addition is passed over for its type or its operands, and that an initialised result lies below the
result of the summary.

* `Body.conforms_of_visits`: the invariant of runs.
* `Solver.verdict_ne_notAsked`: an integer addition is always looked into.
* `Body.exists_summary_of_result`: a result of the declared type has a summary above it.
* `Body.visits_preserve_types`: all of it together.
-/

namespace MirRange

namespace Body

variable {b : Body} {args : List Value}

/-- The accepted arguments give a conforming state. -/
theorem conforms_of_seed {s : State} (h : b.seed args = .ok s) : s.Conforms b := by
  intro n v hn
  obtain ⟨_, _, _, ty, hty, hfits⟩ := get?_seed h hn
  exact ⟨ty, hty, Value.conforms_of_fits hfits⟩

/-- **The invariant of runs.**  The state of every visited run conforms to the declarations, and
every observed addition is one of integers. -/
theorem conforms_of_visits (hb : b.WellTyped) {r : Run} (h : b.Visits args r) :
    r.state.Conforms b ∧ ∀ c ∈ r.checked, c.op = .add → c.IsIntegerAddition := by
  obtain ⟨s, loc, hs, hrun⟩ := h
  let P : Run → Prop := fun r =>
    r.state.Conforms b ∧ ∀ c ∈ r.checked, c.op = .add → c.IsIntegerAddition
  have hstart : P (Run.start s) := ⟨conforms_of_seed hs, fun c hc => by cases hc⟩
  refine Run.blocks_preserve (P := P) ?_ hrun hstart
  intro stmts hstmts stmt hstmt loc r e hr he
  obtain ⟨stmts', hstmts', hstmt'⟩ := mem_of_mem_upTo hstmts hstmt
  obtain ⟨hstate, hobserved⟩ := Statement.run_conforms (hb stmts' hstmts' stmt hstmt') hr.1 he
  refine ⟨hstate, ?_⟩
  intro c hc
  rcases List.mem_append.1 hc with hc | hc
  · exact hr.2 c hc
  · exact hobserved c (Option.mem_toList.1 hc)

end Body

/-- An addition of integers is never passed over, whichever solver is asked. -/
theorem Solver.verdict_ne_notAsked (s : Solver) (timeoutMs : Int) {c : CheckedOp}
    (hop : c.op = .add) (hc : c.IsIntegerAddition) : s.verdict timeoutMs c ≠ .notAsked := by
  obtain ⟨i, j, within, hi, hj, hwithin⟩ : ∃ i j within, c.left.interval? = some i ∧
      c.right.interval? = some j ∧ c.ty.range? = some within := by
    rcases hc with ⟨bits, i, j, hty, hl, hr⟩ | ⟨bits, i, j, hty, hl, hr⟩
    · rw [hty, hl, hr]
      exact ⟨i, j, _, rfl, rfl, rfl⟩
    · rw [hty, hl, hr]
      exact ⟨i, j, _, rfl, rfl, rfl⟩
  rw [verdict_eq hop hi hj]
  intro hverdict
  rcases s.decideAdd_cases timeoutMs c.ty i j with ⟨-, hnone⟩ | ⟨hcase, -⟩ | ⟨hcase, -⟩ |
    ⟨q, -, hcase⟩
  · cases hnone.symm.trans hwithin
  · cases hcase.symm.trans hverdict
  · cases hcase.symm.trans hverdict
  · exact Answer.verdict_ne_notAsked (hcase.symm.trans hverdict)

namespace Body

variable {b : Body} {args : List Value}

/-- **A result of the declared type lies below the result of the summary.**  Accepted arguments and
a value of the return type are enough for the summary to exist. -/
theorem exists_summary_of_result {s : State} (hs : b.seed args = .ok s) {v : Value} {ty : Ty}
    (hty : b.localTy 0 = .ok ty) (hv : v.fits ty = true) :
    ∃ summary top, b.summary = .ok summary ∧ summary.result = some top ∧
      v.leq top = .ok true := by
  obtain ⟨hlocals, hargs, -⟩ := seed_eq_ok.1 hs
  obtain ⟨tops, htops, -⟩ := Value.exists_ofTys_of_fits hargs
  obtain ⟨top, htop, hle⟩ := Value.exists_ofTy_of_fits hv
  refine ⟨⟨tops, some top⟩, top, ?_, rfl, hle⟩
  have hsignature : b.signature = .ok (b.argTypes, ty) := by
    obtain ⟨decl, hdecl, rfl⟩ := localTy_eq_ok.1 hty
    obtain ⟨-, hdecl⟩ := at?_eq_some.1 hdecl
    unfold signature
    cases hb : b.locals with
    | nil => exact absurd hb hlocals
    | cons result rest =>
      rw [hb] at hdecl
      obtain rfl : result = decl := Option.some.inj hdecl
      rfl
  rw [summary, bind_eq_ok]
  refine ⟨_, hsignature, bind_eq_ok.2 ⟨tops, htops, bind_eq_ok.2 ⟨top, htop, rfl⟩⟩⟩

/-- **Types are preserved over whole runs.**  After any number of statements of a well-typed body,
on any arguments that it accepts,

* every bound local is declared, and its value fits its type up to parts that hold no value;
* every operand that can be read has a type;
* every observed addition has an integer type and two intervals of its signedness, and is looked
  into with every solver;
* an initialised result lies below the result of the summary. -/
theorem visits_preserve_types (hb : b.WellTyped) {r : Run} (h : b.Visits args r) :
    r.state.Conforms b ∧
    (∀ x v, Operand.eval r.state x = .ok v →
      ∃ ty, b.operandTy x = .ok ty ∧ v.conforms ty = true) ∧
    (∀ c ∈ r.checked, c.op = .add → c.IsIntegerAddition ∧
      ∀ (solver : Solver) timeoutMs, solver.verdict timeoutMs c ≠ .notAsked) ∧
    (∀ v, r.state.get? 0 = some v → v.isInitialized = true →
      ∃ summary top, b.summary = .ok summary ∧ summary.result = some top ∧
        v.leq top = .ok true) := by
  obtain ⟨hstate, hchecked⟩ := conforms_of_visits hb h
  refine ⟨hstate, fun x v hx => Operand.eval_conforms hstate hx, ?_, ?_⟩
  · intro c hc hadd
    have hinteger := hchecked c hc hadd
    exact ⟨hinteger, fun solver timeoutMs => solver.verdict_ne_notAsked timeoutMs hadd hinteger⟩
  · intro v hv hinit
    obtain ⟨s, _, hs, -⟩ := h
    obtain ⟨ty, hty, hconf⟩ := hstate 0 v hv
    exact exists_summary_of_result hs hty (Value.fits_of_conforms hconf hinit)

/-- `refill` after a block that is abandoned at its first statement. -/
def refillLate : Body :=
  { refill with blocks := [.nop, .deinit ⟨1, []⟩] :: refill.blocks }

theorem refillLate_wellTyped : refillLate.WellTyped := by
  intro stmts hstmts stmt hstmt
  rcases List.mem_cons.1 hstmts with rfl | hstmts
  · rcases List.mem_cons.1 hstmt with rfl | hstmt
    · trivial
    · obtain rfl := List.mem_singleton.1 hstmt
      exact ⟨.uint 8, rfl⟩
  · exact refill_wellTyped stmts hstmts stmt hstmt

/-- The abandoned block leaves its fault, the rest is run, and a field stays uninitialised. -/
theorem visits_preserve_types_refillLate :
    ∃ r, refillLate.interpret (refillArgs 200) = .ok r ∧
      r.faults.length = 1 ∧ r.checked.length = 1 ∧
      r.state.get? 3 = some (.tuple [.uninit, .tuple [.bool .false, .uint (.between 100 200)]]) ∧
      r.state.Conforms refillLate ∧
      ∀ c ∈ r.checked, c.op = .add → c.IsIntegerAddition ∧
        ∀ (solver : Solver) timeoutMs, solver.verdict timeoutMs c ≠ .notAsked := by
  obtain ⟨r, hr⟩ : ∃ r, refillLate.interpret (refillArgs 200) = .ok r := ⟨_, rfl⟩
  have htypes := visits_preserve_types refillLate_wellTyped (visits_of_interpret hr)
  refine ⟨r, hr, ?_, ?_, ?_, htypes.1, htypes.2.2.1⟩
  all_goals
    cases hr
    rfl

end Body

end MirRange
