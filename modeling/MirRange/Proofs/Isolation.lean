import MirRange.Analysis
import MirRange.Proofs.Monotonicity
import MirRange.Proofs.Truncation

/-!
# Isolation of functions

A fault in a function is part of its report.  The only thing that could end the analysis of a whole
crate is a violated precondition, and the only precondition that a body can violate is that of
decoding a boolean constant: it has to hold one byte.  So violations are followed from there
outwards, through operands, statements and runs to functions, each time with an equivalence.

* `Const.IsByte`: a constant that holds one byte; `Const.exists_violation_iff`: the boolean
  constants that do not are the ones whose value violates a precondition.
* `Statement.decoded`: the constants that running a statement in a state comes to.
* `Statement.run_eq_error`, `Run.block_eq_error`, `Run.blocks_eq_error`: where statements, blocks
  and runs end with a violation.
* `Body.Decodes`, `Function.Decodes`: the constants that a run, and an examination, comes to;
  `Function.exists_examine_iff`: an examination returns if all of these can be decoded.
* `Crate.analyzeAll_eq_ok`: the reports of a crate are those of its functions, one by one.
* `Crate.analyze_isolated`: what follows for a crate in which all boolean constants hold one byte.
-/

namespace MirRange

/-! ### Constants -/

/-- A constant is encoded in one byte, which is there. -/
def Const.IsByte (c : Const) : Prop :=
  c.kind = .allocated ∧ ∃ n, c.bytes = [some n]

/-- A constant has a value, or lacks one for a fault: it is not boolean, or it holds one byte. -/
def Const.Decodable (c : Const) : Prop :=
  c.ty = .bool → c.IsByte

theorem Truth.exists_ofConst_iff {c : Const} (hty : c.ty = .bool) :
    (∃ t, Truth.ofConst c = .ok t) ↔ c.IsByte := by
  unfold Truth.ofConst Const.IsByte
  rw [if_neg (by simp [hty, Ty.isBool])]
  by_cases hkind : c.kind = .allocated
  · rw [if_neg (not_not_intro hkind)]
    split
    · rename_i n hbytes
      simp [hkind, hbytes]
    · rename_i hbytes
      simp only [reduceCtorEq, exists_false, false_iff]
      intro h
      obtain ⟨n, hn⟩ := h.2
      exact hbytes n hn
  · rw [if_pos hkind]
    simp [hkind]

/-- **The value of a constant violates a precondition exactly if the constant is boolean and does
not hold one byte.** -/
theorem Const.exists_violation_iff {c : Const} :
    (∃ v, c.eval = .error (.violation v)) ↔ ¬c.Decodable := by
  unfold Const.eval Const.Decodable
  split
  · rename_i hty
    rw [← Truth.exists_ofConst_iff hty]
    cases Truth.ofConst c with
    | ok t => simp [hty, Except.map, Except.mapError]
    | error v => simp [hty, Except.map, Except.mapError]
  · rename_i hty
    simp only [Except.error.injEq, reduceCtorEq, exists_false, false_iff, not_not]
    intro h
    exact absurd h hty

/-! ### Statements -/

/-- The constant that an operand is. -/
def Operand.constants : Operand → List Const
  | .const c => [c]
  | _ => []

/-- The operands of an rvalue. -/
def Rvalue.operands : Rvalue → List Operand
  | .use x | .unary _ x | .cast x _ => [x]
  | .binary _ left right | .checked _ left right => [left, right]
  | .ref _ _ => []
  | .aggregate items => items

/-- The operands of a statement. -/
def Statement.operands : Statement → List Operand
  | .assign _ rv => rv.operands
  | _ => []

/-- The constants that evaluating two operands in a state comes to: the right one is looked at only
if the left one has a value. -/
def Operand.decodedPair (s : State) (left right : Operand) : List Const :=
  left.constants ++ if (left.eval s).isOk then right.constants else []

/-- The constants that evaluating an rvalue in a state comes to; the operands of unsupported ones
are not looked at. -/
def Rvalue.decoded (s : State) : Rvalue → List Const
  | .use x => x.constants
  | .binary _ left right | .checked _ left right => Operand.decodedPair s left right
  | _ => []

/-- The constants that running a statement in a state comes to. -/
def Statement.decoded (s : State) : Statement → List Const
  | .assign _ rv => rv.decoded s
  | _ => []

section

variable {b : Body} {loc : Location} {s : State} {v : Violation} {c : Const}

theorem Operand.mem_constants {x : Operand} : c ∈ x.constants ↔ x = .const c := by
  cases x with
  | copy p => simp [constants]
  | move p => simp [constants]
  | const c' => simp [constants, eq_comm]

theorem Operand.mem_pair_of_decoded {left right : Operand} (h : c ∈ decodedPair s left right) :
    .const c ∈ [left, right] := by
  rcases List.mem_append.1 h with hleft | hright
  · rw [mem_constants.1 hleft]
    exact List.mem_cons_self
  · split at hright
    · rw [mem_constants.1 hright]
      exact List.mem_cons_of_mem _ List.mem_cons_self
    · cases hright

theorem Rvalue.mem_operands_of_decoded {rv : Rvalue} (h : c ∈ rv.decoded s) :
    .const c ∈ rv.operands := by
  cases rv with
  | use x =>
    rw [Operand.mem_constants.1 h]
    exact List.mem_cons_self
  | binary op left right => exact Operand.mem_pair_of_decoded h
  | checked op left right => exact Operand.mem_pair_of_decoded h
  | unary op x => cases h
  | ref p isMut => cases h
  | aggregate items => cases h
  | cast x ty => cases h

/-- The constants that a statement comes to are among its operands. -/
theorem Statement.mem_operands_of_decoded {stmt : Statement} (h : c ∈ stmt.decoded s) :
    .const c ∈ stmt.operands := by
  cases stmt with
  | assign p rv => exact Rvalue.mem_operands_of_decoded h
  | deinit p => cases h
  | storageLive n => cases h
  | storageDead n => cases h
  | nop => cases h

theorem Operand.eval_eq_violation {x : Operand} :
    x.eval s = .error (.violation v) ↔ ∃ c ∈ x.constants, c.eval = .error (.violation v) := by
  cases x with
  | copy p => simp [Operand.eval, constants, mapError_eq_error]
  | move p => simp [Operand.eval, constants, mapError_eq_error]
  | const c => simp [Operand.eval, constants]

theorem BinOp.eval_eq_violation {op : BinOp} {left right : Operand} :
    op.eval s left right = .error (.violation v) ↔
      ∃ c ∈ Operand.decodedPair s left right, c.eval = .error (.violation v) := by
  -- once both operands have values, only a fault can follow
  have hrest : ∀ l, ((do
      let r ← right.eval s
      let v ← (op.apply l r).mapError .fault
      return (l, r, v)) : Except Interrupt (Value × Value × Value)) = .error (.violation v) ↔
      right.eval s = .error (.violation v) := by
    intro l
    simp [bind_eq_error, mapError_eq_error, pure, Except.pure]
  rw [BinOp.eval, bind_eq_error]
  simp only [hrest, Operand.eval_eq_violation, Operand.decodedPair]
  cases left.eval s with
  | ok l => simp [Except.isOk, Except.toBool, or_and_right, exists_or]
  | error e => simp [Except.isOk, Except.toBool]

/-- **Evaluating an rvalue ends with a violation exactly if it comes to a constant that does.** -/
theorem Rvalue.eval_eq_violation {rv : Rvalue} :
    rv.eval b loc s = .error (.violation v) ↔
      ∃ c ∈ rv.decoded s, c.eval = .error (.violation v) := by
  cases rv with
  | use x =>
    simp only [Rvalue.eval, bind_eq_error, Operand.eval_eq_violation]
    simp [decoded, pure, Except.pure]
  | binary op left right =>
    simp only [Rvalue.eval, bind_eq_error, BinOp.eval_eq_violation]
    simp [decoded, pure, Except.pure]
  | checked op left right =>
    -- the type of the left operand may be missing, which is a fault
    simp only [Rvalue.eval, bind_eq_error, BinOp.eval_eq_violation]
    simp [decoded, mapError_eq_error, pure, Except.pure]
  | unary op x => simp [Rvalue.eval, decoded]
  | ref p isMut => simp [Rvalue.eval, decoded]
  | aggregate items => simp [Rvalue.eval, decoded]
  | cast x ty => simp [Rvalue.eval, decoded]

/-- **A statement ends with a violation exactly if it comes to a constant that does.** -/
theorem Statement.run_eq_error {stmt : Statement} :
    stmt.run b loc s = .error v ↔ ∃ c ∈ stmt.decoded s, c.eval = .error (.violation v) := by
  cases stmt with
  | assign p rv =>
    rw [Statement.decoded, ← @Rvalue.eval_eq_violation b loc, Statement.run]
    split
    · rename_i hrv
      simp [hrv]
    · rename_i hrv
      simp [hrv]
    · rename_i hrv
      simp [hrv]
  | deinit p => simp [Statement.run, decoded]
  | storageLive n => simp [Statement.run, decoded]
  | storageDead n => simp [Statement.run, decoded]
  | nop => simp [Statement.run, decoded]

end

/-! ### Runs -/

namespace Run

variable {b : Body} {bb i : Nat} {v : Violation}

theorem block_cons_eq_error {stmt : Statement} {rest : List Statement} {r : Run} :
    block b bb i (stmt :: rest) r = .error v ↔
      stmt.run b ⟨bb, i⟩ r.state = .error v ∨
        ∃ e, stmt.run b ⟨bb, i⟩ r.state = .ok e ∧ e.fault = none ∧
          block b bb (i + 1) rest (r.after e) = .error v := by
  rw [block, bind_eq_error]
  refine or_congr_right (exists_congr fun e => and_congr_right fun _ => ?_)
  cases e.fault with
  | none => simp
  | some f => simp [pure, Except.pure]

/-- **Where a block ends with a violation**: at a statement that the ones before it have led to. -/
theorem block_eq_error {stmts : List Statement} {r : Run} :
    block b bb i stmts r = .error v ↔
      ∃ kept stmt rest s cs, stmts = kept ++ stmt :: rest ∧ Passes b bb i kept r.state s cs ∧
        stmt.run b ⟨bb, i + kept.length⟩ s = .error v := by
  constructor
  · intro h
    induction stmts generalizing i r with
    | nil => cases h
    | cons stmt rest ih =>
      rcases block_cons_eq_error.1 h with hstmt | ⟨e, he, hfault, h⟩
      · exact ⟨[], stmt, rest, r.state, [], rfl, .nil, hstmt⟩
      · obtain ⟨kept, stmt', rest', s, cs, rfl, hpass, hrun⟩ := ih h
        refine ⟨stmt :: kept, stmt', rest', s, _, rfl, .cons he hfault hpass, ?_⟩
        rw [List.length_cons, show i + (kept.length + 1) = i + 1 + kept.length by omega]
        exact hrun
  · rintro ⟨kept, stmt, rest, s, cs, rfl, hpass, hrun⟩
    -- the induction is on the statements that pass, whatever run has led to their first state
    generalize hstart : r.state = s₀ at hpass
    induction hpass generalizing r with
    | nil =>
      rw [← hstart] at hrun
      exact block_cons_eq_error.2 (.inl hrun)
    | @cons i first kept s₀ e s cs he hfault hpass ih =>
      rw [← hstart] at he
      refine block_cons_eq_error.2 (.inr ⟨e, he, hfault, ih ?_ rfl⟩)
      rw [List.length_cons, show i + (kept.length + 1) = i + 1 + kept.length by omega] at hrun
      exact hrun

/-- Where a run ends with a violation: in a block that the ones before it have led to. -/
theorem blocks_eq_error {bs : List (List Statement)} {r : Run} :
    blocks b bb bs r = .error v ↔
      ∃ before stmts after r', bs = before ++ stmts :: after ∧ blocks b bb before r = .ok r' ∧
        block b (bb + before.length) 0 stmts r' = .error v := by
  constructor
  · intro h
    induction bs generalizing bb r with
    | nil => cases h
    | cons stmts rest ih =>
      rw [blocks, bind_eq_error] at h
      rcases h with hblock | ⟨r₁, hr₁, h⟩
      · exact ⟨[], stmts, rest, r, rfl, rfl, hblock⟩
      · obtain ⟨before, stmts', after, r', rfl, hbefore, hblock⟩ := ih h
        refine ⟨stmts :: before, stmts', after, r', rfl, ?_, ?_⟩
        · exact blocks_cons_eq_ok.2 ⟨r₁, hr₁, hbefore⟩
        · rw [List.length_cons, show bb + (before.length + 1) = bb + 1 + before.length by omega]
          exact hblock
  · rintro ⟨before, stmts, after, r', rfl, hbefore, hblock⟩
    rw [blocks_append, hbefore]
    show blocks b (bb + before.length) (stmts :: after) r' = .error v
    rw [blocks, bind_eq_error]
    exact .inl hblock

end Run

namespace Body

/-- A run on given arguments comes to a constant: it is decoded by a statement that the blocks and
statements before it have led to. -/
def Decodes (b : Body) (args : List Value) (c : Const) : Prop :=
  ∃ before stmts after r kept stmt rest s cs, b.Arrives args before stmts after r ∧
    stmts = kept ++ stmt :: rest ∧ Run.Passes b before.length 0 kept r.state s cs ∧
    c ∈ stmt.decoded s

/-- The constants among the operands of a body. -/
def constants (b : Body) : List Const :=
  b.blocks.flatMap fun stmts => stmts.flatMap fun stmt => stmt.operands.flatMap Operand.constants

/-- A run comes to constants of the body only. -/
theorem Decodes.mem_constants {b : Body} {args : List Value} {c : Const}
    (h : b.Decodes args c) : c ∈ b.constants := by
  obtain ⟨before, stmts, after, r, kept, stmt, rest, s, cs, harrives, hstmts, -, hc⟩ := h
  have hblock : stmts ∈ b.blocks := by
    rw [harrives.blocks]
    exact List.mem_append_right _ List.mem_cons_self
  have hstmt : stmt ∈ stmts := by
    rw [hstmts]
    exact List.mem_append_right _ List.mem_cons_self
  have hoperand : c ∈ stmt.operands.flatMap Operand.constants :=
    List.mem_flatMap.2 ⟨_, Statement.mem_operands_of_decoded hc, Operand.mem_constants.2 rfl⟩
  exact List.mem_flatMap.2 ⟨stmts, hblock, List.mem_flatMap.2 ⟨stmt, hstmt, hoperand⟩⟩

/-- **A run ends with a violation exactly if it comes to a constant that does.** -/
theorem interpret_eq_violation {b : Body} {args : List Value} {v : Violation} :
    b.interpret args = .error (.violation v) ↔
      ∃ c, b.Decodes args c ∧ c.eval = .error (.violation v) := by
  have hruns : b.interpret args = .error (.violation v) ↔
      ∃ s, b.seed args = .ok s ∧ Run.blocks b 0 b.blocks (Run.start s) = .error v := by
    unfold interpret
    cases b.seed args with
    | error f => simp
    | ok s => simp [mapError_eq_error]
  rw [hruns]
  constructor
  · rintro ⟨s, hs, hrun⟩
    obtain ⟨before, stmts, after, r, hblocks, hbefore, hblock⟩ := Run.blocks_eq_error.1 hrun
    rw [Nat.zero_add] at hblock
    obtain ⟨kept, stmt, rest, s', cs, hstmts, hpass, hstmt⟩ := Run.block_eq_error.1 hblock
    obtain ⟨c, hc, hviolation⟩ := Statement.run_eq_error.1 hstmt
    exact ⟨c, ⟨before, stmts, after, r, kept, stmt, rest, s', cs, ⟨hblocks, s, hs, hbefore⟩,
      hstmts, hpass, hc⟩, hviolation⟩
  · rintro ⟨c, ⟨before, stmts, after, r, kept, stmt, rest, s', cs, harrives, hstmts, hpass, hc⟩,
      hviolation⟩
    obtain ⟨s, hs, hbefore⟩ := harrives.run
    refine ⟨s, hs, Run.blocks_eq_error.2 ⟨before, stmts, after, r, harrives.blocks, hbefore, ?_⟩⟩
    rw [Nat.zero_add]
    exact Run.block_eq_error.2
      ⟨kept, stmt, rest, s', cs, hstmts, hpass, Statement.run_eq_error.2 ⟨c, hc, hviolation⟩⟩

end Body

/-! ### Functions -/

/-- Without a signature there is no summary either, for the same reason. -/
theorem Body.summary_of_signature_error {b : Body} {e : Fault} (h : b.signature = .error e) :
    b.summary = .error e := by
  rw [Body.summary, h]
  rfl

namespace Function

/-- The examination of a function comes to a constant: the function is eligible, has a summary, and
its run on the arguments of the summary comes to the constant. -/
def Decodes (f : Function) (c : Const) : Prop :=
  f.body.isEligible = true ∧
    ∃ summary, f.body.summary = .ok summary ∧ f.body.Decodes summary.arguments c

/-- Every constant that the examination of a function comes to can be decoded. -/
def Decodable (f : Function) : Prop :=
  ∀ c, f.Decodes c → c.Decodable

/-- An examination ends with a violation exactly if the run on the arguments of the summary does. -/
theorem examine_eq_error {f : Function} {v : Violation} :
    f.examine = .error v ↔
      f.body.isEligible = true ∧ ∃ summary, f.body.summary = .ok summary ∧
        f.body.interpret summary.arguments = .error (.violation v) := by
  have hbody : ∀ args result (summary : Summary),
      examineBody f.body args result summary = .error v ↔
        f.body.interpret summary.arguments = .error (.violation v) := by
    intro args result summary
    unfold examineBody
    split
    · rename_i hrun
      simp [hrun]
    · rename_i hrun
      simp [hrun]
    · rename_i hrun
      simp [hrun]
  unfold examine
  by_cases helig : f.body.isEligible = true
  · rw [if_pos helig]
    cases hsignature : f.body.signature with
    | error e => simp [Body.summary_of_signature_error hsignature]
    | ok types =>
      cases hsummary : f.body.summary with
      | error e => simp
      | ok summary => simp [hbody, helig]
  · rw [if_neg helig]
    simp [helig]

/-- **The examination of a function returns exactly if every constant that it comes to can be
decoded.**  Whatever else is wrong with the function is part of the examination. -/
theorem exists_examine_iff {f : Function} : (∃ e, f.examine = .ok e) ↔ f.Decodable := by
  have hviolation : (∃ v, f.examine = .error v) ↔ ∃ c, f.Decodes c ∧ ¬c.Decodable := by
    simp only [examine_eq_error, Body.interpret_eq_violation, Decodes, ← Const.exists_violation_iff]
    constructor
    · rintro ⟨v, helig, summary, hsummary, c, hc, hv⟩
      exact ⟨c, ⟨helig, summary, hsummary, hc⟩, v, hv⟩
    · rintro ⟨c, ⟨helig, summary, hsummary, hc⟩, v, hv⟩
      exact ⟨v, helig, summary, hsummary, c, hc, hv⟩
  have hdecodable : f.Decodable ↔ ¬∃ v, f.examine = .error v := by
    rw [hviolation]
    simp [Decodable]
  rw [hdecodable]
  cases f.examine with
  | ok e => simp
  | error v => simp

theorem exists_analyze_iff {f : Function} {checker : Overflow.Checker} {settings : Settings} :
    (∃ rep, f.analyze checker settings = .ok rep) ↔ f.Decodable := by
  rw [← exists_examine_iff]
  simp only [analyze, map_eq_ok]
  constructor
  · rintro ⟨rep, e, he, -⟩
    exact ⟨e, he⟩
  · rintro ⟨e, he⟩
    exact ⟨_, e, he, rfl⟩

/-- A report is filed under the name of its function. -/
theorem name_of_analyze {f : Function} {checker : Overflow.Checker} {settings : Settings}
    {rep : FunctionReport} (h : f.analyze checker settings = .ok rep) : rep.name = f.name := by
  obtain ⟨e, -, rfl⟩ := map_eq_ok.1 h
  cases e <;> rfl

end Function

/-! ### Crates -/

namespace Crate

/-- The constants among the operands of a crate. -/
def constants (c : Crate) : List Const :=
  c.functions.flatMap fun f => f.body.constants

/-- Every constant among the operands of a crate can be decoded. -/
def Decodable (c : Crate) : Prop :=
  ∀ k ∈ c.constants, k.Decodable

theorem Decodable.function {c : Crate} (h : c.Decodable) {f : Function} (hf : f ∈ c.functions) :
    f.Decodable := by
  intro k hk
  obtain ⟨-, summary, -, hdecodes⟩ := hk
  exact h k (List.mem_flatMap.2 ⟨f, hf, hdecodes.mem_constants⟩)

section

variable {c : Crate} {checker : Overflow.Checker} {settings : Settings}

/-- The reports of several functions are their reports one by one. -/
theorem analyzeAll_eq_ok {fs : List Function} {reps : List FunctionReport} :
    analyzeAll checker settings fs = .ok reps ↔
      List.Forall₂ (fun f rep => f.analyze checker settings = .ok rep) fs reps := by
  induction fs generalizing reps with
  | nil => simp [analyzeAll, eq_comm]
  | cons f fs ih =>
    rw [analyzeAll, List.forall₂_cons_left_iff]
    cases f.analyze checker settings with
    | error v => simp
    | ok r =>
      simp only [map_eq_ok, ih, Except.ok.injEq]
      constructor
      · rintro ⟨reps', hreps', rfl⟩
        exact ⟨r, reps', rfl, hreps', rfl⟩
      · rintro ⟨_, reps', rfl, hreps', rfl⟩
        exact ⟨reps', hreps', rfl⟩

theorem analyze_eq_ok {report : CrateReport} :
    c.analyze checker settings = .ok report ↔
      ∃ reps, List.Forall₂ (fun f rep => f.analyze checker settings = .ok rep)
          (c.selected settings) reps ∧
        ⟨c.name, reps, (c.skipped settings).map Function.name, .zero⟩ = report := by
  rw [analyze, bind_eq_ok]
  simp only [analyzeAll_eq_ok, pure, Except.pure, Except.ok.injEq]

theorem exists_reports_iff {fs : List Function} :
    (∃ reps, List.Forall₂ (fun f rep => f.analyze checker settings = .ok rep) fs reps) ↔
      ∀ f ∈ fs, f.Decodable := by
  induction fs with
  | nil => simp
  | cons f fs ih =>
    rw [List.forall_mem_cons, ← ih, ← @Function.exists_analyze_iff f checker settings]
    simp only [List.forall₂_cons_left_iff]
    constructor
    · rintro ⟨_, rep, reps, hrep, hreps, rfl⟩
      exact ⟨⟨rep, hrep⟩, reps, hreps⟩
    · rintro ⟨⟨rep, hrep⟩, reps, hreps⟩
      exact ⟨_, rep, reps, hrep, hreps, rfl⟩

/-- **The analysis of a crate returns exactly if every constant that the examinations of its
selected functions come to can be decoded.** -/
theorem exists_analyze_iff :
    (∃ report, c.analyze checker settings = .ok report) ↔
      ∀ f ∈ c.selected settings, f.Decodable := by
  rw [← @exists_reports_iff checker settings]
  simp only [analyze_eq_ok]
  constructor
  · rintro ⟨_, reps, hreps, -⟩
    exact ⟨reps, hreps⟩
  · rintro ⟨reps, hreps⟩
    exact ⟨_, reps, hreps, rfl⟩

/-- A choice by names takes all functions of a name or none. -/
theorem count_names (c : Crate) (p : String → Bool) (name : String) :
    ((c.functions.filter fun f => p f.name).map Function.name).count name =
      if p name then (c.functions.map Function.name).count name else 0 := by
  have hnames : (c.functions.filter fun f => p f.name).map Function.name =
      (c.functions.map Function.name).filter p := by
    rw [List.filter_map]
    rfl
  rw [hnames]
  split
  · rename_i hp
    exact List.count_filter hp
  · rename_i hp
    refine List.count_eq_zero.2 fun hmem => hp ?_
    exact (List.mem_filter.1 hmem).2

end

/-- A report is filed for each function, under its name. -/
theorem names_of_reports {checker : Overflow.Checker} {settings : Settings} {fs : List Function}
    {reps : List FunctionReport}
    (h : List.Forall₂ (fun f rep => f.analyze checker settings = .ok rep) fs reps) :
    reps.map FunctionReport.name = fs.map Function.name := by
  induction h with
  | nil => rfl
  | cons hrep _ ih => rw [List.map_cons, List.map_cons, ih, Function.name_of_analyze hrep]

end Crate

/-- The functions that were analysed, and those that were not, make up all reports. -/
theorem CrateReport.countP_ok_add_failed (r : CrateReport) :
    r.functions.countP FunctionReport.ok + r.failed.length = r.functions.length := by
  rw [failed, ← List.countP_eq_length_filter]
  have hsplit := List.length_eq_countP_add_countP FunctionReport.ok (l := r.functions)
  simp only [Bool.not_eq_true, Bool.decide_eq_false] at hsplit
  exact hsplit.symm

theorem CrateReport.get?_succeeded (r : CrateReport) :
    r.toDocument.get? "succeeded" =
      some (.int (r.functions.countP FunctionReport.ok : Nat)) := by
  have hsum := r.countP_ok_add_failed
  show some (Document.int ((r.functions.length : Int) - r.failed.length)) = _
  congr 2
  omega

namespace Crate

/-- **Functions are analysed in isolation.**  Let every boolean constant among the operands of a
crate be allocated and hold one byte.  Then, whatever comes to verdicts on overflow, whatever the
settings are and whatever else is wrong with some functions, the analysis of the crate returns a
report, and

* it holds the reports that the selected functions have on their own, in the order of the crate;
* it lists the names of the other functions, in the order of the crate;
* each name is found in one of these two lists only, as often as there are functions of that name;
* the numbers in its document form add up: succeeded and failed to analysed, and analysed and passed
  over to all functions of the crate. -/
theorem analyze_isolated (c : Crate) (checker : Overflow.Checker) (settings : Settings)
    (h : c.Decodable) :
    ∃ report, c.analyze checker settings = .ok report ∧
      List.Forall₂ (fun f rep => f.analyze checker settings = .ok rep)
        (c.functions.filter fun f => settings.selects f.name) report.functions ∧
      report.skipped = (c.functions.filter fun f => !settings.selects f.name).map Function.name ∧
      (∀ name,
        (report.functions.map FunctionReport.name).count name =
          (if settings.selects name then (c.functions.map Function.name).count name else 0) ∧
        report.skipped.count name =
          if settings.selects name then 0 else (c.functions.map Function.name).count name) ∧
      ∃ analyzed succeeded failed : Nat,
        report.toDocument.get? "analyzed" = some (.int analyzed) ∧
        report.toDocument.get? "succeeded" = some (.int succeeded) ∧
        report.toDocument.get? "failed" = some (.int failed) ∧
        report.toDocument.get? "skipped" = some (.list (report.skipped.map .text)) ∧
        succeeded = report.functions.countP FunctionReport.ok ∧
        succeeded + failed = analyzed ∧
        analyzed + report.skipped.length = c.functions.length := by
  obtain ⟨report, hreport⟩ := exists_analyze_iff.2
    fun f (hf : f ∈ c.selected settings) => h.function (List.mem_filter.1 hf).1
  obtain ⟨reps, hreps, rfl⟩ := analyze_eq_ok.1 hreport
  refine ⟨_, hreport, hreps, rfl, ?_, _, _, _, rfl, CrateReport.get?_succeeded _, rfl, rfl, rfl,
    CrateReport.countP_ok_add_failed _, ?_⟩
  · intro name
    rw [names_of_reports hreps]
    refine ⟨c.count_names settings.selects name, ?_⟩
    show ((c.skipped settings).map Function.name).count name = _
    rw [skipped, c.count_names fun n => !settings.selects n]
    cases settings.selects name with
    | true => rfl
    | false => rfl
  · have hsplit := List.length_eq_length_filter_add (l := c.functions)
      fun f => settings.selects f.name
    rw [List.length_map, ← hreps.length_eq, hsplit]
    rfl

/-- A crate with a function that returns a constant, one whose result cannot be represented, one
that is abandoned half way, and a test of it. -/
def mixed : Crate where
  name := "mixed"
  functions := [
    ⟨"flag", { blocks := [[.assign ⟨0, []⟩ (.use (.const ⟨.bool, [some 1], .allocated⟩))]]
               locals := [⟨.bool, false⟩], argCount := 0 }⟩,
    ⟨"half", { blocks := [], locals := [⟨.float 64, false⟩], argCount := 0 }⟩,
    ⟨"test_add", Body.compareAdd⟩,
    ⟨"compare_add", Body.compareAdd⟩]

/-- Settings that leave out tests. -/
def withoutTests : Settings :=
  { excludes := ["test_*"] }

theorem mixed_decodable : mixed.Decodable := by
  have hconstants : mixed.constants = [⟨.bool, [some 1], .allocated⟩] := rfl
  intro k hk
  rw [hconstants, List.mem_singleton] at hk
  rw [hk]
  exact fun _ => ⟨rfl, 1, rfl⟩

theorem analyze_isolated_mixed :
    mixed.Decodable ∧
      ∃ report, mixed.analyze Solver.ends.verdict withoutTests = .ok report ∧
      report.functions.map (fun rep => (rep.name, rep.ok)) =
        [("flag", true), ("half", false), ("compare_add", true)] ∧
      report.skipped = ["test_add"] ∧
      report.toDocument.get? "succeeded" = some (.int 2) ∧
      report.toDocument.get? "failed" = some (.int 1) := by
  obtain ⟨report, hreport, hreps, hskipped, -, analyzed, succeeded, failed, -, hsucceeded, hfailed,
    -, hcount, hsum, hall⟩ :=
      analyze_isolated mixed Solver.ends.verdict withoutTests mixed_decodable
  have hselects : withoutTests.selects "flag" = true ∧ withoutTests.selects "half" = true ∧
      withoutTests.selects "test_add" = false ∧ withoutTests.selects "compare_add" = true := by
    decide +kernel
  simp only [mixed, List.filter, hselects, Bool.not_true, Bool.not_false, List.map_cons,
    List.map_nil] at hreps hskipped
  simp only [List.forall₂_cons_left_iff, List.forall₂_nil_left_iff] at hreps
  obtain ⟨flag, _, hflag, ⟨half, _, hhalf, ⟨add, _, hadd, rfl, rfl⟩, rfl⟩, hfunctions⟩ := hreps
  cases hflag
  cases hhalf
  cases hadd
  have htwo : succeeded = 2 := by
    rw [hcount, hfunctions]
    rfl
  have hone : failed = 1 := by
    rw [hskipped] at hall
    simp only [mixed, List.length_cons, List.length_nil] at hall
    omega
  rw [htwo] at hsucceeded
  rw [hone] at hfailed
  refine ⟨mixed_decodable, report, hreport, ?_, hskipped, hsucceeded, hfailed⟩
  rw [hfunctions]
  rfl

end Crate

end MirRange
