import MirRange.Interpretation
import MirRange.Proofs.Path

/-!
# Runs up to a position

A run of a body is a recursion over blocks and statements that keeps the faults and observations so
far.  This file says once what one more statement does to a run, and from that what whole runs do.

* `Body.statementAt?`, `Body.upTo`: the statement at a location, and the blocks before it.
* `Body.Visits`: the runs after any number of statements; a completed run is one of them
  (`Body.visits_of_interpret`).
* `Run.blocks_preserve`: what every statement preserves, a run preserves.
* `Run.reach_of_faultless`: a run without faults has passed through every location, and has kept
  what was observed there.
-/

namespace MirRange

namespace Body

/-- The statement at a location. -/
def statementAt? (b : Body) (loc : Location) : Option Statement :=
  (b.blocks[loc.block]?).bind fun stmts => stmts[loc.statement]?

/-- The blocks up to a location, the last one cut off there. -/
def upTo (b : Body) (loc : Location) : List (List Statement) :=
  b.blocks.take loc.block ++ [(b.blocks.getD loc.block []).take loc.statement]

/-- A run that is reached on given arguments after some number of statements. -/
def Visits (b : Body) (args : List Value) (r : Run) : Prop :=
  ∃ s loc, b.seed args = .ok s ∧ Run.blocks b 0 (b.upTo loc) (Run.start s) = .ok r

theorem interpret_eq_ok {b : Body} {args : List Value} {r : Run} :
    b.interpret args = .ok r ↔
      ∃ s, b.seed args = .ok s ∧ Run.blocks b 0 b.blocks (Run.start s) = .ok r := by
  unfold interpret
  cases b.seed args with
  | error f => simp
  | ok s => simp [mapError_eq_ok]

theorem statementAt?_eq_some {b : Body} {loc : Location} {stmt : Statement} :
    b.statementAt? loc = some stmt ↔
      ∃ stmts, b.blocks[loc.block]? = some stmts ∧ stmts[loc.statement]? = some stmt := by
  rw [statementAt?, Option.bind_eq_some_iff]

theorem mem_of_statementAt? {b : Body} {loc : Location} {stmt : Statement}
    (h : b.statementAt? loc = some stmt) : ∃ stmts ∈ b.blocks, stmt ∈ stmts := by
  obtain ⟨stmts, hstmts, hstmt⟩ := statementAt?_eq_some.1 h
  exact ⟨stmts, List.mem_of_getElem? hstmts, List.mem_of_getElem? hstmt⟩

/-- The statements before a location are statements of the body. -/
theorem mem_of_mem_upTo {b : Body} {loc : Location} {stmts : List Statement}
    (h : stmts ∈ b.upTo loc) {stmt : Statement} (hstmt : stmt ∈ stmts) :
    ∃ stmts' ∈ b.blocks, stmt ∈ stmts' := by
  rcases List.mem_append.1 h with h | h
  · exact ⟨stmts, List.mem_of_mem_take h, hstmt⟩
  · obtain rfl := List.mem_singleton.1 h
    have hmem : stmt ∈ b.blocks.getD loc.block [] := List.mem_of_mem_take hstmt
    rw [List.getD_eq_getElem?_getD] at hmem
    cases hget : b.blocks[loc.block]? with
    | none =>
      rw [hget] at hmem
      cases hmem
    | some stmts' =>
      rw [hget] at hmem
      exact ⟨stmts', List.mem_of_getElem? hget, hmem⟩

end Body

namespace Run

variable {b : Body} {bb i : Nat} {r r' : Run}

/-! ### One more statement -/

theorem block_cons_eq_ok {stmt : Statement} {rest : List Statement} :
    block b bb i (stmt :: rest) r = .ok r' ↔
      ∃ e, stmt.run b ⟨bb, i⟩ r.state = .ok e ∧
        ((∃ f, e.fault = some f ∧ r.after e = r') ∨
          (e.fault = none ∧ block b bb (i + 1) rest (r.after e) = .ok r')) := by
  rw [block, bind_eq_ok]
  refine exists_congr fun e => and_congr_right fun _ => ?_
  cases e.fault with
  | none => simp
  | some f => simp [pure, Except.pure]

theorem blocks_cons_eq_ok {stmts : List Statement} {rest : List (List Statement)} :
    blocks b bb (stmts :: rest) r = .ok r' ↔
      ∃ r₁, block b bb 0 stmts r = .ok r₁ ∧ blocks b (bb + 1) rest r₁ = .ok r' := by
  rw [blocks, bind_eq_ok]

/-- **What every statement preserves, the run of a block preserves**, up to its end or its first
fault. -/
theorem block_preserve {P : Run → Prop} {stmts : List Statement}
    (hstep : ∀ stmt ∈ stmts, ∀ loc r e, P r → stmt.run b loc r.state = .ok e → P (r.after e))
    (h : block b bb i stmts r = .ok r') (hr : P r) : P r' := by
  induction stmts generalizing i r with
  | nil =>
    obtain rfl : r = r' := Except.ok.inj h
    exact hr
  | cons stmt rest ih =>
    obtain ⟨e, he, hrest⟩ := block_cons_eq_ok.1 h
    have hafter := hstep stmt List.mem_cons_self _ r e hr he
    rcases hrest with ⟨f, -, rfl⟩ | ⟨-, hrest⟩
    · exact hafter
    · exact ih (fun s hs => hstep s (List.mem_cons_of_mem _ hs)) hrest hafter

/-- **What every statement preserves, a run preserves**, through abandoned blocks as well. -/
theorem blocks_preserve {P : Run → Prop} {bs : List (List Statement)}
    (hstep : ∀ stmts ∈ bs, ∀ stmt ∈ stmts, ∀ loc r e, P r → stmt.run b loc r.state = .ok e →
      P (r.after e))
    (h : blocks b bb bs r = .ok r') (hr : P r) : P r' := by
  induction bs generalizing bb r with
  | nil =>
    obtain rfl : r = r' := Except.ok.inj h
    exact hr
  | cons stmts rest ih =>
    obtain ⟨r₁, hblock, hrest⟩ := blocks_cons_eq_ok.1 h
    have hr₁ := block_preserve (hstep stmts List.mem_cons_self) hblock hr
    exact ih (fun s hs => hstep s (List.mem_cons_of_mem _ hs)) hrest hr₁

/-! ### Faults and observations are kept -/

/-- A run goes on from another: it has kept its faults and its observations. -/
def Extends (r r' : Run) : Prop :=
  r.faults ⊆ r'.faults ∧ r.checked ⊆ r'.checked

theorem Extends.refl (r : Run) : r.Extends r :=
  ⟨List.Subset.refl _, List.Subset.refl _⟩

theorem Extends.trans {r₁ r₂ r₃ : Run} (h : r₁.Extends r₂) (h' : r₂.Extends r₃) : r₁.Extends r₃ :=
  ⟨List.Subset.trans h.1 h'.1, List.Subset.trans h.2 h'.2⟩

theorem extends_after (r : Run) (e : Effect) : r.Extends (r.after e) :=
  ⟨List.subset_append_left _ _, List.subset_append_left _ _⟩

/-- What is observed in a statement is kept by the runs that go on from it. -/
theorem Extends.observed {e : Effect} (h : (r.after e).Extends r') :
    e.observed.toList ⊆ r'.checked :=
  List.Subset.trans (List.subset_append_right _ _) h.2

theorem block_extends {stmts : List Statement} (h : block b bb i stmts r = .ok r') :
    r.Extends r' :=
  block_preserve (P := r.Extends) (fun _ _ _ r₁ e hr₁ _ => hr₁.trans (extends_after r₁ e)) h
    (.refl r)

theorem blocks_extends {bs : List (List Statement)} (h : blocks b bb bs r = .ok r') :
    r.Extends r' :=
  blocks_preserve (P := r.Extends) (fun _ _ _ _ _ r₁ e hr₁ _ => hr₁.trans (extends_after r₁ e)) h
    (.refl r)

theorem Extends.faultless (h : r.Extends r') (hr' : r'.faults = []) : r.faults = [] :=
  List.subset_nil.1 (hr' ▸ h.1)

/-- In a run that ends without faults, a statement has none and the rest of its block is run. -/
theorem block_cons_of_faultless {stmt : Statement} {rest : List Statement}
    (h : block b bb i (stmt :: rest) r = .ok r') (hr' : r'.faults = []) :
    ∃ e, stmt.run b ⟨bb, i⟩ r.state = .ok e ∧ e.fault = none ∧
      block b bb (i + 1) rest (r.after e) = .ok r' := by
  obtain ⟨e, he, ⟨f, hf, rfl⟩ | ⟨hf, hrest⟩⟩ := block_cons_eq_ok.1 h
  · rw [after, hf] at hr'
    simp at hr'
  · exact ⟨e, he, hf, hrest⟩

/-! ### Runs in parts -/

theorem blocks_append {bs bs' : List (List Statement)} :
    blocks b bb (bs ++ bs') r = blocks b bb bs r >>= blocks b (bb + bs.length) bs' := by
  induction bs generalizing bb r with
  | nil => rfl
  | cons stmts rest ih =>
    show (block b bb 0 stmts r >>= fun r₁ => blocks b (bb + 1) (rest ++ bs') r₁) =
      (block b bb 0 stmts r >>= fun r₁ => blocks b (bb + 1) rest r₁) >>=
        blocks b (bb + (rest.length + 1)) bs'
    cases block b bb 0 stmts r with
    | error v => rfl
    | ok r₁ =>
      show blocks b (bb + 1) (rest ++ bs') r₁ =
        blocks b (bb + 1) rest r₁ >>= blocks b (bb + (rest.length + 1)) bs'
      rw [ih, Nat.add_assoc, Nat.add_comm 1]

/-- One more block at the end. -/
theorem blocks_concat {bs : List (List Statement)} {stmts : List Statement} {r₁ : Run}
    (h : blocks b bb bs r = .ok r₁) (hblock : block b (bb + bs.length) 0 stmts r₁ = .ok r') :
    blocks b bb (bs ++ [stmts]) r = .ok r' := by
  rw [blocks_append, h]
  exact blocks_cons_eq_ok.2 ⟨r', hblock, rfl⟩

/-- A block that is run without faults can be run in two parts. -/
theorem block_append_of_faultless {stmts stmts' : List Statement}
    (h : block b bb i (stmts ++ stmts') r = .ok r') (hr' : r'.faults = []) :
    ∃ r₁, block b bb i stmts r = .ok r₁ ∧ block b bb (i + stmts.length) stmts' r₁ = .ok r' := by
  induction stmts generalizing i r with
  | nil => exact ⟨r, rfl, h⟩
  | cons stmt rest ih =>
    obtain ⟨e, he, hf, hrest⟩ := block_cons_of_faultless h hr'
    obtain ⟨r₁, hr₁, hrest⟩ := ih hrest
    refine ⟨r₁, block_cons_eq_ok.2 ⟨e, he, .inr ⟨hf, hr₁⟩⟩, ?_⟩
    rw [List.length_cons, Nat.add_comm rest.length, ← Nat.add_assoc]
    exact hrest

/-- **A run without faults passes through every location.**  It goes on from the run up to the
location, the statement there has no fault, and what is observed in it is kept. -/
theorem reach_of_faultless {s : State} {loc : Location} {stmt : Statement}
    (h : blocks b 0 b.blocks (start s) = .ok r) (hr : r.faults = [])
    (hloc : b.statementAt? loc = some stmt) :
    ∃ r₁ e, blocks b 0 (b.upTo loc) (start s) = .ok r₁ ∧ r₁.Extends r ∧
      stmt.run b loc r₁.state = .ok e ∧ e.fault = none ∧ e.observed.toList ⊆ r.checked := by
  obtain ⟨bb, i⟩ := loc
  obtain ⟨stmts, hstmts, hstmt⟩ := Body.statementAt?_eq_some.1 hloc
  obtain ⟨hbb, rfl⟩ := List.getElem?_eq_some_iff.1 hstmts
  obtain ⟨hi, rfl⟩ := List.getElem?_eq_some_iff.1 hstmt
  -- the body in three parts: the blocks before, the block itself, the blocks after
  rw [← List.take_append_drop bb b.blocks, List.drop_eq_getElem_cons hbb, blocks_append,
    bind_eq_ok, List.length_take, Nat.min_eq_left (Nat.le_of_lt hbb), Nat.zero_add] at h
  obtain ⟨r₀, hbefore, h⟩ := h
  obtain ⟨r₂, hblock, hafter⟩ := blocks_cons_eq_ok.1 h
  have hr₂ : r₂.faults = [] := (blocks_extends hafter).faultless hr
  -- the block in three parts: the statements before, the statement itself, the statements after
  rw [← List.take_append_drop i b.blocks[bb], List.drop_eq_getElem_cons hi] at hblock
  obtain ⟨r₁, hfirst, hblock⟩ := block_append_of_faultless hblock hr₂
  rw [List.length_take, Nat.min_eq_left (Nat.le_of_lt hi), Nat.zero_add] at hblock
  have hr₁ : r₁.Extends r := (block_extends hblock).trans (blocks_extends hafter)
  obtain ⟨e, he, hf, hrest⟩ := block_cons_of_faultless hblock hr₂
  refine ⟨r₁, e, ?_, hr₁, he, hf, ?_⟩
  · rw [Body.upTo, blocks_append, bind_eq_ok, List.length_take, Nat.min_eq_left (Nat.le_of_lt hbb),
      Nat.zero_add]
    refine ⟨r₀, hbefore, blocks_cons_eq_ok.2 ⟨r₁, ?_, rfl⟩⟩
    rw [List.getD_eq_getElem?_getD, hstmts]
    exact hfirst
  · exact ((block_extends hrest).trans (blocks_extends hafter)).observed

end Run

/-- A completed run is visited. -/
theorem Body.visits_of_interpret {b : Body} {args : List Value} {r : Run}
    (h : b.interpret args = .ok r) : b.Visits args r := by
  obtain ⟨s, hs, hrun⟩ := Body.interpret_eq_ok.1 h
  refine ⟨s, ⟨b.blocks.length, 0⟩, hs, ?_⟩
  rw [Body.upTo, List.take_length, Run.blocks_append, bind_eq_ok]
  exact ⟨r, hrun, rfl⟩

end MirRange
