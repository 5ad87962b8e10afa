import MirRange.Proofs.Run
import MirRange.Proofs.Typing

/-!
# Abandoned blocks

A statement with a fault leaves the state as it was and ends its block, and nothing else.  So a run
with faults is the run, without faults, of the body whose blocks end just before the statements that
had them; what the other run has in addition are the faults of these statements and what was
observed in them.

* `Run.Passes`: statements that are run one after the other without a fault.
* `Run.block_cases`: a block passes, or passes up to a statement with a fault.
* `Body.faultAt?`, `Body.stop?`, `Body.cuts`: the fault at a location, and the first ones of the
  blocks.
* `Body.truncated`: the body whose blocks end before them.
* `Body.Mirrors`: how the two runs correspond, kept by every block (`Body.Mirrors.block`).
* `Body.interpret_truncated`: how they correspond at the end.
-/

namespace MirRange

/-! ### One statement -/

section

variable {b : Body} {loc : Location} {s : State} {stmt : Statement} {e : Effect}

theorem State.store_state_of_fault {p : Place} {v : Value} {observed : Option CheckedOp} {f : Fault}
    (h : (s.store b p v observed).fault = some f) : (s.store b p v observed).state = s := by
  unfold State.store at h ⊢
  split
  · rename_i hwrite
    rw [hwrite] at h
    cases h
  · rfl

/-- **A statement with a fault leaves the state as it was.** -/
theorem Statement.run_state_of_fault (h : stmt.run b loc s = .ok e) {f : Fault}
    (hf : e.fault = some f) : e.state = s := by
  rcases Statement.run_eq_ok h with ⟨p, rv, v, observed, -, -, rfl⟩ | ⟨p, -, rfl⟩ | ⟨f', rfl⟩
  · exact State.store_state_of_fault hf
  · exact State.store_state_of_fault hf
  · rfl

/-- **What can be observed in a statement**: at its location, the checked operation that it assigns,
at the type of the left operand. -/
theorem Statement.run_observed (h : stmt.run b loc s = .ok e) {c : CheckedOp}
    (hc : e.observed = some c) :
    c.location = loc ∧ ∃ p left right, stmt = .assign p (.checked c.op left right) ∧
      b.operandTy left = .ok c.ty := by
  rcases Statement.run_eq_ok h with ⟨p, rv, v, observed, rfl, hrv, rfl⟩ | ⟨p, -, rfl⟩ | ⟨f, rfl⟩
  · rw [State.store_observed] at hc
    subst hc
    rcases Rvalue.eval_eq_ok hrv with ⟨x, -, -, hobserved⟩ | ⟨op, l, r, _, _, -, -, hobserved⟩ |
      ⟨op, l, r, _, _, _, ty, rfl, -, hty, -, hobserved⟩
    · cases hobserved
    · cases hobserved
    · cases hobserved
      exact ⟨rfl, p, l, r, rfl, hty⟩
  · rw [State.store_observed] at hc
    cases hc
  · cases hc

theorem Statement.run_observed_location (h : stmt.run b loc s = .ok e) {c : CheckedOp}
    (hc : e.observed = some c) : c.location = loc :=
  (Statement.run_observed h hc).1

end

/-! ### Blocks -/

namespace Run

/-- The statements of a block from position `i` on are all run without a fault: they lead from one
state to another, with some observations. -/
inductive Passes (b : Body) (bb : Nat) :
    Nat → List Statement → State → State → List CheckedOp → Prop
  | nil {i s} : Passes b bb i [] s s []
  | cons {i stmt rest s e s' cs} : stmt.run b ⟨bb, i⟩ s = .ok e → e.fault = none →
      Passes b bb (i + 1) rest e.state s' cs →
      Passes b bb i (stmt :: rest) s s' (e.observed.toList ++ cs)

variable {b : Body} {bb i : Nat} {stmts : List Statement} {s s' : State} {cs : List CheckedOp}

/-- Statements that pass do so whatever faults and observations were there before. -/
theorem Passes.block (h : Passes b bb i stmts s s' cs) (fs : List Fault) (os : List CheckedOp) :
    Run.block b bb i stmts ⟨s, fs, os⟩ = .ok ⟨s', fs, os ++ cs⟩ := by
  induction h generalizing os with
  | nil => rw [Run.block, List.append_nil]
  | @cons i stmt rest s e s' cs he hf _ ih =>
    refine block_cons_eq_ok.2 ⟨e, he, .inr ⟨hf, ?_⟩⟩
    rw [after, hf, ← List.append_assoc]
    simp only [Option.toList_none, List.append_nil]
    exact ih _

/-- Of statements that pass, each is reached by those before it, and has no fault. -/
theorem Passes.at (h : Passes b bb i stmts s s' cs) {j : Nat} (hj : j < stmts.length) :
    ∃ kept stmt rest s₁ cs₁ e, stmts = kept ++ stmt :: rest ∧ kept.length = j ∧
      Passes b bb i kept s s₁ cs₁ ∧ stmt.run b ⟨bb, i + j⟩ s₁ = .ok e ∧ e.fault = none := by
  induction h generalizing j with
  | nil => cases hj
  | @cons i first rest s e s' cs he hf _ ih =>
    cases j with
    | zero => exact ⟨[], first, rest, s, [], e, rfl, rfl, .nil, he, hf⟩
    | succ j =>
      obtain ⟨kept, stmt, rest', s₁, cs₁, e₁, rfl, hlen, hpass, hrun, hnone⟩ :=
        ih (Nat.lt_of_succ_lt_succ hj)
      refine ⟨first :: kept, stmt, rest', s₁, _, e₁, rfl, by rw [List.length_cons, hlen],
        .cons he hf hpass, ?_, hnone⟩
      rw [show i + (j + 1) = i + 1 + j by omega]
      exact hrun

/-- What is observed in statements that pass is located at them. -/
theorem Passes.location (h : Passes b bb i stmts s s' cs) {c : CheckedOp} (hc : c ∈ cs) :
    c.location.block = bb ∧ c.location.statement < i + stmts.length := by
  induction h with
  | nil => cases hc
  | @cons i stmt rest s e s' cs he hf _ ih =>
    rw [List.length_cons]
    rcases List.mem_append.1 hc with hc | hc
    · rw [Statement.run_observed_location he (Option.mem_toList.1 hc)]
      exact ⟨rfl, by dsimp only; omega⟩
    · obtain ⟨hblock, hlt⟩ := ih hc
      exact ⟨hblock, by omega⟩

/-- **What a block can do**: pass, or pass up to a statement with a fault, which leaves the state
where it is. -/
theorem block_cases {r r' : Run} (h : Run.block b bb i stmts r = .ok r') :
    (∃ s' cs, Passes b bb i stmts r.state s' cs ∧ r' = ⟨s', r.faults, r.checked ++ cs⟩) ∨
    ∃ kept stmt rest s' cs e f, stmts = kept ++ stmt :: rest ∧
      Passes b bb i kept r.state s' cs ∧ stmt.run b ⟨bb, i + kept.length⟩ s' = .ok e ∧
      e.fault = some f ∧
      r' = ⟨s', r.faults ++ [f], r.checked ++ (cs ++ e.observed.toList)⟩ := by
  induction stmts generalizing i r with
  | nil =>
    obtain rfl : r = r' := Except.ok.inj h
    exact .inl ⟨r.state, [], .nil, by rw [List.append_nil]⟩
  | cons stmt rest ih =>
    obtain ⟨e, he, ⟨f, hf, rfl⟩ | ⟨hf, hrest⟩⟩ := block_cons_eq_ok.1 h
    · refine .inr ⟨[], stmt, rest, r.state, [], e, f, rfl, .nil, he, hf, ?_⟩
      rw [after, hf, Statement.run_state_of_fault he hf]
      rfl
    · have hafter : r.after e = ⟨e.state, r.faults, r.checked ++ e.observed.toList⟩ := by
        rw [after, hf]
        simp only [Option.toList_none, List.append_nil]
      rw [hafter] at hrest
      rcases ih hrest with ⟨s', cs, hpass, rfl⟩ |
        ⟨kept, stmt', rest', s', cs, e', f, rfl, hpass, he', hf', rfl⟩
      · exact .inl ⟨s', _, .cons he hf hpass, by rw [List.append_assoc]⟩
      · refine .inr ⟨stmt :: kept, stmt', rest', s', _, e', f, rfl, .cons he hf hpass, ?_, hf', ?_⟩
        · rw [List.length_cons, show i + (kept.length + 1) = i + 1 + kept.length by omega]
          exact he'
        · rw [List.append_assoc, List.append_assoc]

end Run

/-! ### The truncated body -/

namespace Body

/-- The fault of the statement at a location, in the state that the body reaches there on given
arguments.  Behind the first fault of its block a statement is not run, and this says nothing. -/
def faultAt? (b : Body) (args : List Value) (loc : Location) : Option Fault := do
  let s ← (b.seed args).toOption
  let r ← (Run.blocks b 0 (b.upTo loc) (Run.start s)).toOption
  let stmt ← b.statementAt? loc
  let e ← (stmt.run b loc r.state).toOption
  e.fault

/-- The position of the first statement of a block that has a fault. -/
def stop? (b : Body) (args : List Value) (bb : Nat) : Option Nat :=
  (List.range (b.blocks.getD bb []).length).find? fun i => (b.faultAt? args ⟨bb, i⟩).isSome

/-- The location at which a block is cut off. -/
def cut? (b : Body) (args : List Value) (bb : Nat) : Option Location :=
  (b.stop? args bb).map fun i => ⟨bb, i⟩

/-- The locations at which blocks are cut off, in the order of the blocks. -/
def cuts (b : Body) (args : List Value) : List Location :=
  (List.range b.blocks.length).filterMap (b.cut? args)

/-- What is left of a block that is cut off before its first statement with a fault. -/
def kept (b : Body) (args : List Value) (bb : Nat) (stmts : List Statement) : List Statement :=
  match b.stop? args bb with
  | some i => stmts.take i
  | none => stmts

/-- The body with every block cut off before its first statement with a fault. -/
def truncated (b : Body) (args : List Value) : Body :=
  { b with blocks := b.blocks.mapIdx (b.kept args) }

/-- A run has come to a block: the blocks before it have been run. -/
structure Arrives (b : Body) (args : List Value) (before : List (List Statement))
    (stmts : List Statement) (after : List (List Statement)) (r : Run) : Prop where
  blocks : b.blocks = before ++ stmts :: after
  run : ∃ s, b.seed args = .ok s ∧ Run.blocks b 0 before (Run.start s) = .ok r

section

variable {b : Body} {args : List Value} {r : Run} {stmts kept rest : List Statement}
  {before after : List (List Statement)} {s' : State} {cs : List CheckedOp}

theorem Arrives.getElem? (h : b.Arrives args before stmts after r) :
    b.blocks[before.length]? = some stmts := by
  rw [h.blocks]
  simp

/-- The fault of a statement that is reached by those before it. -/
theorem Arrives.faultAt? (h : b.Arrives args before stmts after r) {stmt : Statement}
    (hstmts : stmts = kept ++ stmt :: rest)
    (hpass : Run.Passes b before.length 0 kept r.state s' cs) {e : Effect}
    (he : stmt.run b ⟨before.length, kept.length⟩ s' = .ok e) :
    b.faultAt? args ⟨before.length, kept.length⟩ = e.fault := by
  obtain ⟨s, hs, hbefore⟩ := h.run
  have hupTo : b.upTo ⟨before.length, kept.length⟩ = before ++ [kept] := by
    rw [upTo, List.getD_eq_getElem?_getD, h.getElem?, h.blocks, hstmts]
    simp
  have hstmt : b.statementAt? ⟨before.length, kept.length⟩ = some stmt := by
    refine statementAt?_eq_some.2 ⟨stmts, h.getElem?, ?_⟩
    rw [hstmts]
    simp
  have hrun : Run.blocks b 0 (before ++ [kept]) (Run.start s) =
      .ok ⟨s', r.faults, r.checked ++ cs⟩ := by
    refine Run.blocks_concat hbefore ?_
    rw [Nat.zero_add]
    exact hpass.block r.faults r.checked
  simp only [Body.faultAt?, hs, hupTo, hrun, hstmt, he, Except.toOption, Option.bind_eq_bind,
    Option.bind_some]

/-- Statements that pass have no faults. -/
theorem Arrives.faultAt?_eq_none (h : b.Arrives args before stmts after r)
    (hstmts : stmts = kept ++ rest) (hpass : Run.Passes b before.length 0 kept r.state s' cs)
    {j : Nat} (hj : j < kept.length) : b.faultAt? args ⟨before.length, j⟩ = none := by
  obtain ⟨kept₁, stmt, rest₁, s₁, cs₁, e, rfl, rfl, hpass₁, he, hnone⟩ := hpass.at hj
  rw [Nat.zero_add] at he
  rw [List.append_assoc, List.cons_append] at hstmts
  rw [h.faultAt? hstmts hpass₁ he, hnone]

/-- A block that passes does not stop. -/
theorem Arrives.stop?_eq_none (h : b.Arrives args before stmts after r)
    (hpass : Run.Passes b before.length 0 stmts r.state s' cs) :
    b.stop? args before.length = none := by
  rw [stop?, List.getD_eq_getElem?_getD, h.getElem?, List.find?_range_eq_none]
  intro j hj
  rw [h.faultAt?_eq_none (List.append_nil stmts).symm hpass hj]
  rfl

/-- A block stops at the first statement with a fault. -/
theorem Arrives.stop?_eq_some (h : b.Arrives args before stmts after r) {stmt : Statement}
    (hstmts : stmts = kept ++ stmt :: rest)
    (hpass : Run.Passes b before.length 0 kept r.state s' cs) {e : Effect} {f : Fault}
    (he : stmt.run b ⟨before.length, kept.length⟩ s' = .ok e) (hf : e.fault = some f) :
    b.stop? args before.length = some kept.length := by
  rw [stop?, List.getD_eq_getElem?_getD, h.getElem?, List.find?_range_eq_some]
  refine ⟨?_, ?_, ?_⟩
  · rw [h.faultAt? hstmts hpass he, hf]
    rfl
  · rw [Option.getD_some, hstmts]
    simp
  · intro j hj
    rw [h.faultAt?_eq_none hstmts hpass hj]
    rfl

end

theorem mem_cuts {b : Body} {args : List Value} {loc : Location} :
    loc ∈ b.cuts args ↔
      loc.block < b.blocks.length ∧ b.stop? args loc.block = some loc.statement := by
  simp only [cuts, cut?, List.mem_filterMap, List.mem_range, Option.map_eq_some_iff]
  constructor
  · rintro ⟨bb, hbb, i, hi, rfl⟩
    exact ⟨hbb, hi⟩
  · rintro ⟨hbb, hi⟩
    exact ⟨loc.block, hbb, loc.statement, hi, rfl⟩

/-! ### The two runs -/

/-- How a run through `n` blocks and the run through what is kept of them correspond: they are in
the same state, the second has no faults, those of the first are the ones at the cuts, and what the
second has observed is what the first has observed elsewhere. -/
structure Mirrors (b : Body) (args : List Value) (n : Nat) (r r' : Run) : Prop where
  state : r'.state = r.state
  faultless : r'.faults = []
  faults : r.faults.map some = ((List.range n).filterMap (b.cut? args)).map (b.faultAt? args)
  checked : r'.checked = r.checked.filter fun c => c.location ∉ b.cuts args

section

variable {b : Body} {args : List Value} {r r₁ r' : Run} {stmts : List Statement}
  {before after : List (List Statement)}

/-- The cuts in one more block. -/
theorem filterMap_cut?_succ (b : Body) (args : List Value) (n : Nat) :
    (List.range (n + 1)).filterMap (b.cut? args) =
      (List.range n).filterMap (b.cut? args) ++ (b.cut? args n).toList := by
  rw [List.range_succ, List.filterMap_append]
  cases hcut : b.cut? args n <;> simp [hcut]

/-- What statements that pass have observed is nowhere cut off, if the block stops after them. -/
theorem filter_of_passes (args : List Value) {bb : Nat} {s s' : State} {cs : List CheckedOp}
    (hpass : Run.Passes b bb 0 stmts s s' cs)
    (hstop : ∀ i, b.stop? args bb = some i → stmts.length ≤ i) :
    cs.filter (fun c => c.location ∉ b.cuts args) = cs := by
  refine List.filter_eq_self.2 fun c hc => ?_
  obtain ⟨hblock, hlt⟩ := hpass.location hc
  rw [decide_eq_true_eq, mem_cuts, hblock]
  rintro ⟨-, hcut⟩
  have hle := hstop _ hcut
  omega

/-- What was observed in a statement that is cut off is left out. -/
theorem filter_of_cut {loc : Location} {s : State} {stmt : Statement} {e : Effect}
    (he : stmt.run b loc s = .ok e) (hcut : loc ∈ b.cuts args) :
    e.observed.toList.filter (fun c => c.location ∉ b.cuts args) = [] := by
  refine List.filter_eq_nil_iff.2 fun c hc => ?_
  rw [decide_eq_true_eq, Statement.run_observed_location he (Option.mem_toList.1 hc)]
  exact not_not_intro hcut

/-- **What one block does to the correspondence**: a block that passes is run in both runs, and one
that stops adds its fault to the first, and what was observed there. -/
theorem Mirrors.block (h : b.Arrives args before stmts after r)
    (hm : b.Mirrors args before.length r r')
    (hrun : Run.block b before.length 0 stmts r = .ok r₁) :
    ∃ r₁', Run.block b before.length 0 (b.kept args before.length stmts) r' = .ok r₁' ∧
      b.Mirrors args (before.length + 1) r₁ r₁' := by
  rcases Run.block_cases hrun with ⟨s', cs, hpass, rfl⟩ |
    ⟨kept, stmt, rest, s', cs, e, f, hstmts, hpass, he, hf, rfl⟩
  · -- nothing is cut off
    have hstop := h.stop?_eq_none hpass
    refine ⟨⟨s', r'.faults, r'.checked ++ cs⟩, ?_, rfl, hm.faultless, ?_, ?_⟩
    · rw [Body.kept, hstop]
      rw [← hm.state] at hpass
      exact hpass.block r'.faults r'.checked
    · rw [filterMap_cut?_succ, cut?, hstop]
      simpa using hm.faults
    · have hcs := filter_of_passes args hpass fun i hi => by
        rw [hstop] at hi
        cases hi
      rw [hm.checked, List.filter_append, hcs]
  · -- what is kept are the statements before `stmt`, and they pass
    rw [Nat.zero_add] at he
    have hstop := h.stop?_eq_some hstmts hpass he hf
    have hfault := h.faultAt? hstmts hpass he
    have hcut : ⟨before.length, kept.length⟩ ∈ b.cuts args := by
      refine mem_cuts.2 ⟨?_, hstop⟩
      obtain ⟨hlt, -⟩ := List.getElem?_eq_some_iff.1 h.getElem?
      exact hlt
    refine ⟨⟨s', r'.faults, r'.checked ++ cs⟩, ?_, rfl, hm.faultless, ?_, ?_⟩
    · rw [Body.kept, hstop, hstmts]
      rw [← hm.state] at hpass
      dsimp only
      rw [List.take_left]
      exact hpass.block r'.faults r'.checked
    · rw [filterMap_cut?_succ, cut?, hstop, List.map_append, List.map_append, hm.faults]
      simp [hfault, hf]
    · have hcs := filter_of_passes args hpass fun i hi => by
        rw [hstop] at hi
        cases hi
        exact Nat.le_refl _
      rw [hm.checked, List.filter_append, List.filter_append, hcs, filter_of_cut he hcut,
        List.append_nil]

/-- **What a run does to the correspondence**: it is kept to the end. -/
theorem Mirrors.blocks {s : State} (hs : b.seed args = .ok s) (hblocks : b.blocks = before ++ after)
    (hbefore : Run.blocks b 0 before (Run.start s) = .ok r)
    (hm : b.Mirrors args before.length r r')
    (hrun : Run.blocks b before.length after r = .ok r₁) :
    ∃ r₁', Run.blocks b before.length
        (after.mapIdx fun k stmts => b.kept args (before.length + k) stmts) r' = .ok r₁' ∧
      b.Mirrors args b.blocks.length r₁ r₁' := by
  -- blocks that are done move over to `before`, so the cuts stay those of the whole body
  induction after generalizing before r r' with
  | nil =>
    obtain rfl : r = r₁ := Except.ok.inj hrun
    rw [List.append_nil] at hblocks
    rw [hblocks]
    exact ⟨r', rfl, hm⟩
  | cons stmts rest ih =>
    obtain ⟨r₂, hblock, hrest⟩ := Run.blocks_cons_eq_ok.1 hrun
    obtain ⟨r₂', hblock', hm₂⟩ := hm.block ⟨hblocks, s, hs, hbefore⟩ hblock
    have hlen : (before ++ [stmts]).length = before.length + 1 := by simp
    have hbefore₂ : Run.blocks b 0 (before ++ [stmts]) (Run.start s) = .ok r₂ :=
      Run.blocks_concat hbefore (by rw [Nat.zero_add]; exact hblock)
    rw [← hlen] at hm₂ hrest
    obtain ⟨r₁', hrest', hm₁⟩ := ih (by rw [hblocks]; simp) hbefore₂ hm₂ hrest
    refine ⟨r₁', ?_, hm₁⟩
    rw [List.mapIdx_cons, Run.blocks_cons_eq_ok]
    refine ⟨r₂', hblock', ?_⟩
    rw [hlen] at hrest'
    simpa only [Nat.add_assoc, Nat.add_comm 1] using hrest'

end

/-- Running statements does not look at the blocks of the body. -/
theorem run_withBlocks (b : Body) (bs : List (List Statement)) (loc : Location) (s : State)
    (stmt : Statement) : stmt.run { b with blocks := bs } loc s = stmt.run b loc s := by
  cases stmt <;> rfl

theorem block_withBlocks (b : Body) (bs : List (List Statement)) (bb i : Nat)
    (stmts : List Statement) (r : Run) :
    Run.block { b with blocks := bs } bb i stmts r = Run.block b bb i stmts r := by
  induction stmts generalizing i r with
  | nil => rfl
  | cons stmt rest ih =>
    rw [Run.block, Run.block, run_withBlocks]
    simp only [ih]

theorem blocks_withBlocks (b : Body) (bs : List (List Statement)) (bb : Nat)
    (rest : List (List Statement)) (r : Run) :
    Run.blocks { b with blocks := bs } bb rest r = Run.blocks b bb rest r := by
  induction rest generalizing bb r with
  | nil => rfl
  | cons stmts rest ih =>
    rw [Run.blocks, Run.blocks, block_withBlocks]
    simp only [ih]

/-- **A fault is atomic and cuts off exactly its block.**  Let the run of a body on some arguments
return, and cut off every block before its first statement that has a fault.  Then

* the run of the truncated body on the same arguments returns in the same state and has no faults;
* the faults of the original run are those of the statements at the cuts, one for each, in order;
* the truncated body observes what the original one does, except at the cuts.

And whatever the state, a statement that has a fault leaves it as it is. -/
theorem interpret_truncated (b : Body) (args : List Value) :
    (∀ r, b.interpret args = .ok r →
      ∃ r', (b.truncated args).interpret args = .ok r' ∧ r'.state = r.state ∧ r'.faults = [] ∧
        r.faults.map some = (b.cuts args).map (b.faultAt? args) ∧
        r'.checked = r.checked.filter fun c => c.location ∉ b.cuts args) ∧
    ∀ loc s (stmt : Statement) e, stmt.run b loc s = .ok e → e.fault ≠ none → e.state = s := by
  constructor
  · intro r h
    obtain ⟨s, hs, hrun⟩ := interpret_eq_ok.1 h
    have hstart : b.Mirrors args 0 (Run.start s) (Run.start s) := ⟨rfl, rfl, rfl, rfl⟩
    obtain ⟨r', hr', hm⟩ := Mirrors.blocks hs (List.nil_append b.blocks).symm rfl hstart hrun
    refine ⟨r', interpret_eq_ok.2 ⟨s, hs, ?_⟩, hm.state, hm.faultless, hm.faults, hm.checked⟩
    rw [truncated, blocks_withBlocks]
    simpa only [List.length_nil, Nat.zero_add] using hr'
  · intro loc s stmt e he hf
    obtain ⟨f, hf⟩ := Option.ne_none_iff_exists'.1 hf
    exact Statement.run_state_of_fault he hf

/-- A body that adds its arguments twice.  The second sum is observed but cannot be written, as
local 1 has no fields; the last block still finds the first one. -/
def addTwice : Body where
  blocks := [
    [.assign ⟨0, []⟩ (.checked .add (.copy ⟨1, []⟩) (.copy ⟨2, []⟩)),
      .assign ⟨1, [.field 0]⟩ (.checked .add (.copy ⟨1, []⟩) (.copy ⟨2, []⟩)),
      .deinit ⟨0, []⟩],
    [.nop],
    [.assign ⟨2, []⟩ (.use (.move ⟨0, [.field 0]⟩))]]
  locals := [⟨.tuple [.uint 8, .bool], true⟩, ⟨.uint 8, false⟩, ⟨.uint 8, true⟩]
  argCount := 2

theorem interpret_truncated_addTwice :
    ∃ r r', addTwice.interpret (refillArgs 200) = .ok r ∧
      addTwice.cuts (refillArgs 200) = [⟨0, 1⟩, ⟨1, 0⟩] ∧ r.checked.length = 2 ∧
      (addTwice.truncated (refillArgs 200)).interpret (refillArgs 200) = .ok r' ∧
      r'.state = r.state ∧ r'.faults = [] ∧ r'.checked.length = 1 := by
  obtain ⟨r', hr', hstate, hnone, -, hchecked⟩ :=
    (interpret_truncated addTwice (refillArgs 200)).1 _ rfl
  exact ⟨_, r', rfl, rfl, rfl, hr', hstate, hnone, congrArg List.length hchecked⟩

end Body

end MirRange
