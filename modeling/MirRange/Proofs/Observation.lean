import MirRange.Proofs.Monotonicity
import MirRange.Proofs.NoMissedOverflow
import MirRange.Proofs.Truncation
import Mathlib.Data.List.Nodup

/-!
# Observations and the statements they are of

A run goes through the locations of a body in order, and observes the checked operations on its way.
So what it has observed is ordered by location, comes from the statements at these locations, and
misses no checked operation that was run without a fault.  Diagnostics are picked from what was
observed, and their texts tell their locations apart.

* `Location.text_injective`: a location can be read off its text.
* `Run.Reaches`, `Body.Reaches`: a block, and a run, comes to a statement, which has some effect.
* `Body.Observed`: what has been observed before a block, kept by every block
  (`Body.Observed.block`).
* `Body.observed_of_reaches`: what is observed in a statement that is reached is kept.
* `Body.observations_located`: observations and diagnostics point at real statements, once each.
-/

namespace MirRange

/-! ### Locations -/

namespace Location

/-- Locations are ordered by block, and in a block by statement. -/
instance : LT Location :=
  ⟨fun l l' => l.block < l'.block ∨ l.block = l'.block ∧ l.statement < l'.statement⟩

variable {l l' : Location}

theorem lt_iff :
    l < l' ↔ l.block < l'.block ∨ l.block = l'.block ∧ l.statement < l'.statement :=
  Iff.rfl

theorem ne_of_lt (h : l < l') : l ≠ l' := by
  rintro rfl
  rw [lt_iff] at h
  omega

theorem bracket_not_mem_toDigits (n : Nat) : '[' ∉ Nat.toDigits 10 n := by
  intro h
  have hdigit := Nat.isDigit_of_mem_toDigits (by decide) (by decide) h
  exact absurd hdigit (by decide)

theorem toDigits_injective : Function.Injective (Nat.toDigits 10) := by
  intro m n h
  have hm : Nat.ofDigitChars 10 (Nat.toDigits 10 m) 0 = m := Nat.ofDigitChars_ten_toDigits
  rw [← hm, h, Nat.ofDigitChars_ten_toDigits]

theorem toList_text (l : Location) :
    l.text.toList = 'b' :: 'b' :: (Nat.toDigits 10 l.block ++
      '[' :: (Nat.toDigits 10 l.statement ++ [']'])) := by
  simp [text, Nat.toString_eq_repr, Nat.toList_repr]

/-- The two numbers of a location are told apart by the bracket between them. -/
theorem text_injective : Function.Injective text := by
  rintro ⟨bb, i⟩ ⟨bb', i'⟩ h
  have hlist := congrArg String.toList h
  rw [toList_text, toList_text, List.cons_inj_right, List.cons_inj_right] at hlist
  have hrest : '[' ∉ Nat.toDigits 10 i ++ [']'] := by
    simp [bracket_not_mem_toDigits]
  obtain ⟨hblock, -, hstatement⟩ :=
    (List.append_cons_inj_of_notMem (bracket_not_mem_toDigits bb) hrest).1 hlist
  have hbb : bb = bb' := toDigits_injective hblock
  have hi : i = i' := toDigits_injective (List.append_cancel_right hstatement)
  rw [hbb, hi]

end Location

/-- What is ordered stays so if all that is added lies behind it. -/
theorem CheckedOp.ordered_append {cs cs' : List CheckedOp}
    (h : (cs.map location).Pairwise (· < ·)) (h' : (cs'.map location).Pairwise (· < ·))
    (hlt : ∀ c ∈ cs, ∀ c' ∈ cs', c.location < c'.location) :
    ((cs ++ cs').map location).Pairwise (· < ·) := by
  rw [List.pairwise_map] at h h' ⊢
  exact List.pairwise_append.2 ⟨h, h', hlt⟩

/-! ### One block -/

namespace Run

/-- The statements of a block from position `i` on, run from a state, come to one of them: those
before it have no faults, and it has some effect. -/
inductive Reaches (b : Body) (bb : Nat) :
    Nat → List Statement → State → Location → Statement → Effect → Prop
  | here {i stmt rest s e} : stmt.run b ⟨bb, i⟩ s = .ok e →
      Reaches b bb i (stmt :: rest) s ⟨bb, i⟩ stmt e
  | there {i first rest s e₁ loc stmt e} : first.run b ⟨bb, i⟩ s = .ok e₁ → e₁.fault = none →
      Reaches b bb (i + 1) rest e₁.state loc stmt e → Reaches b bb i (first :: rest) s loc stmt e

variable {b : Body} {bb i : Nat} {stmts : List Statement} {s : State} {loc : Location}
  {stmt : Statement} {e : Effect} {r r' : Run}

theorem Reaches.location (h : Reaches b bb i stmts s loc stmt e) :
    loc.block = bb ∧ i ≤ loc.statement := by
  induction h with
  | here => exact ⟨rfl, Nat.le_refl _⟩
  | there _ _ _ ih => exact ⟨ih.1, Nat.le_of_succ_le ih.2⟩

theorem Reaches.getElem? (h : Reaches b bb i stmts s loc stmt e) :
    stmts[loc.statement - i]? = some stmt := by
  induction h with
  | here => rw [Nat.sub_self, List.getElem?_cons_zero]
  | @there i _ _ _ _ loc _ _ _ _ hrest ih =>
    have hle := hrest.location.2
    rw [show loc.statement - i = loc.statement - (i + 1) + 1 by omega, List.getElem?_cons_succ]
    exact ih

theorem Reaches.run (h : Reaches b bb i stmts s loc stmt e) : ∃ s', stmt.run b loc s' = .ok e := by
  induction h with
  | here he => exact ⟨_, he⟩
  | there _ _ _ ih => exact ih

/-- What is observed in a statement that a block comes to is kept to the end of the block. -/
theorem Reaches.observed (h : Reaches b bb i stmts s loc stmt e) (hs : r.state = s)
    (hrun : block b bb i stmts r = .ok r') : e.observed.toList ⊆ r'.checked := by
  induction h generalizing r with
  | here he =>
    obtain ⟨e', he', hrest⟩ := block_cons_eq_ok.1 hrun
    rw [hs, he] at he'
    cases he'
    rcases hrest with ⟨f, -, rfl⟩ | ⟨-, hrest⟩
    · exact (Extends.refl _).observed
    · exact (block_extends hrest).observed
  | there he hf _ ih =>
    obtain ⟨e', he', hrest⟩ := block_cons_eq_ok.1 hrun
    rw [hs, he] at he'
    cases he'
    rcases hrest with ⟨f, hf', -⟩ | ⟨-, hrest⟩
    · rw [hf] at hf'
      cases hf'
    · exact ih rfl hrest

/-- **What a block observes**: in order, and each time in a statement that it comes to. -/
theorem block_observes (h : block b bb i stmts r = .ok r') :
    ∃ cs, r'.checked = r.checked ++ cs ∧ (cs.map CheckedOp.location).Pairwise (· < ·) ∧
      ∀ c ∈ cs, ∃ stmt e, Reaches b bb i stmts r.state c.location stmt e ∧ e.observed = some c := by
  induction stmts generalizing i r with
  | nil =>
    obtain rfl : r = r' := Except.ok.inj h
    exact ⟨[], (List.append_nil _).symm, .nil, by simp⟩
  | cons stmt rest ih =>
    obtain ⟨e, he, hrest⟩ := block_cons_eq_ok.1 h
    have hfirst : ∀ c ∈ e.observed.toList, ∃ stmt' e',
        Reaches b bb i (stmt :: rest) r.state c.location stmt' e' ∧ e'.observed = some c := by
      intro c hc
      have hc := Option.mem_toList.1 hc
      rw [Statement.run_observed_location he hc]
      exact ⟨stmt, e, .here he, hc⟩
    have hsingle : (e.observed.toList.map CheckedOp.location).Pairwise (· < ·) := by
      cases e.observed <;> simp
    rcases hrest with ⟨f, -, rfl⟩ | ⟨hf, hrest⟩
    · exact ⟨_, rfl, hsingle, hfirst⟩
    · obtain ⟨cs, hchecked, hordered, hreaches⟩ := ih hrest
      refine ⟨e.observed.toList ++ cs, ?_, ?_, ?_⟩
      · rw [hchecked, after, List.append_assoc]
      · refine CheckedOp.ordered_append hsingle hordered ?_
        -- what the rest of the block observes lies behind this statement
        intro c hc c' hc'
        obtain ⟨_, _, hreach, -⟩ := hreaches c' hc'
        have hlater := hreach.location
        rw [Statement.run_observed_location he (Option.mem_toList.1 hc), Location.lt_iff]
        exact .inr ⟨hlater.1.symm, hlater.2⟩
      · intro c hc
        rcases List.mem_append.1 hc with hc | hc
        · exact hfirst c hc
        · obtain ⟨stmt', e', hreach, hobserved⟩ := hreaches c hc
          exact ⟨stmt', e', .there he hf hreach, hobserved⟩

end Run

/-! ### Whole runs -/

namespace Body

/-- The run of a body on some arguments comes to a statement, which has some effect. -/
def Reaches (b : Body) (args : List Value) (loc : Location) (stmt : Statement) (e : Effect) :
    Prop :=
  ∃ before stmts after r, b.Arrives args before stmts after r ∧
    Run.Reaches b before.length 0 stmts r.state loc stmt e

/-- What has been observed when a run comes to block number `n`: it is ordered, lies in the blocks
before, and was observed in statements that the run came to. -/
structure Observed (b : Body) (args : List Value) (n : Nat) (r : Run) : Prop where
  ordered : (r.checked.map CheckedOp.location).Pairwise (· < ·)
  before : ∀ c ∈ r.checked, c.location.block < n
  reached : ∀ c ∈ r.checked, ∃ stmt e, b.Reaches args c.location stmt e ∧ e.observed = some c

section

variable {b : Body} {args : List Value} {r r₁ : Run} {stmts : List Statement}
  {before after : List (List Statement)} {loc : Location} {stmt : Statement} {e : Effect}

/-- A statement that is reached is the one at its location. -/
theorem Reaches.statementAt? (h : b.Reaches args loc stmt e) :
    b.statementAt? loc = some stmt := by
  obtain ⟨before, stmts, after, r, harrives, hreach⟩ := h
  refine statementAt?_eq_some.2 ⟨stmts, ?_, ?_⟩
  · rw [hreach.location.1, harrives.getElem?]
  · simpa using hreach.getElem?

theorem Reaches.run (h : b.Reaches args loc stmt e) : ∃ s, stmt.run b loc s = .ok e := by
  obtain ⟨before, stmts, after, r, -, hreach⟩ := h
  exact hreach.run

/-- **What one block adds to the observations**: they lie in that block, behind all others. -/
theorem Observed.block (harrives : b.Arrives args before stmts after r)
    (h : b.Observed args before.length r)
    (hrun : Run.block b before.length 0 stmts r = .ok r₁) :
    b.Observed args (before.length + 1) r₁ := by
  obtain ⟨cs, hchecked, hordered, hreaches⟩ := Run.block_observes hrun
  have hin : ∀ c ∈ cs, c.location.block = before.length := by
    intro c hc
    obtain ⟨_, _, hreach, -⟩ := hreaches c hc
    exact hreach.location.1
  refine ⟨?_, ?_, ?_⟩
  · rw [hchecked]
    refine CheckedOp.ordered_append h.ordered hordered ?_
    intro c hc c' hc'
    rw [Location.lt_iff, hin c' hc']
    exact .inl (h.before c hc)
  · rw [hchecked]
    intro c hc
    rcases List.mem_append.1 hc with hc | hc
    · exact Nat.lt_succ_of_lt (h.before c hc)
    · rw [hin c hc]
      exact Nat.lt_succ_self _
  · rw [hchecked]
    intro c hc
    rcases List.mem_append.1 hc with hc | hc
    · exact h.reached c hc
    · obtain ⟨stmt, e, hreach, hobserved⟩ := hreaches c hc
      exact ⟨stmt, e, ⟨before, stmts, after, r, harrives, hreach⟩, hobserved⟩

/-- **What a run has observed**, after any number of blocks. -/
theorem Observed.blocks {s : State} (hs : b.seed args = .ok s)
    (hblocks : b.blocks = before ++ after)
    (hbefore : Run.blocks b 0 before (Run.start s) = .ok r) (h : b.Observed args before.length r)
    (hrun : Run.blocks b before.length after r = .ok r₁) :
    b.Observed args b.blocks.length r₁ := by
  induction after generalizing before r with
  | nil =>
    obtain rfl : r = r₁ := Except.ok.inj hrun
    rw [hblocks, List.append_nil]
    exact h
  | cons stmts rest ih =>
    obtain ⟨r₂, hblock, hrest⟩ := Run.blocks_cons_eq_ok.1 hrun
    have hlen : (before ++ [stmts]).length = before.length + 1 := by simp
    have hbefore₂ : Run.blocks b 0 (before ++ [stmts]) (Run.start s) = .ok r₂ :=
      Run.blocks_concat hbefore (by rw [Nat.zero_add]; exact hblock)
    have h₂ := h.block ⟨hblocks, s, hs, hbefore⟩ hblock
    rw [← hlen] at h₂ hrest
    exact ih (by rw [hblocks]; simp) hbefore₂ h₂ hrest

theorem observed_of_interpret (h : b.interpret args = .ok r) :
    b.Observed args b.blocks.length r := by
  obtain ⟨s, hs, hrun⟩ := interpret_eq_ok.1 h
  have hstart : b.Observed args 0 (Run.start s) := ⟨.nil, nofun, nofun⟩
  exact hstart.blocks hs (List.nil_append b.blocks).symm rfl hrun

/-- **What is observed in a statement that is reached is kept to the end of the run.** -/
theorem observed_of_reaches (h : b.interpret args = .ok r) (he : b.Reaches args loc stmt e) :
    e.observed.toList ⊆ r.checked := by
  obtain ⟨before, stmts, after, r₀, ⟨hblocks, s, hs, hbefore⟩, hreach⟩ := he
  obtain ⟨s', hs', hrun⟩ := interpret_eq_ok.1 h
  rw [hs] at hs'
  cases hs'
  rw [hblocks, Run.blocks_append, hbefore, Nat.zero_add] at hrun
  obtain ⟨r₁, hblock, hafter⟩ := Run.blocks_cons_eq_ok.1 hrun
  exact List.Subset.trans (hreach.observed rfl hblock) (Run.blocks_extends hafter).2

end

end Body

/-! ### Diagnostics -/

namespace Overflow

/-- Diagnostics are reported in the order of the observations they are of. -/
theorem sublist_locations (judge : CheckedOp → Verdict) (function : String) (cs : List CheckedOp) :
    ((checkAll judge function cs).map Diagnostic.location).Sublist
      (cs.map fun c => c.location.text) := by
  unfold checkAll
  induction cs with
  | nil => exact .slnil
  | cons c cs ih =>
    rw [List.map_cons]
    cases hcheck : check judge function c with
    | none =>
      rw [List.filterMap_cons_none hcheck]
      exact ih.cons _
    | some d =>
      rw [List.filterMap_cons_some hcheck, List.map_cons, (check_cases hcheck).1]
      exact ih.cons_cons _

end Overflow

/-- **What a report says of overflow**: nothing without a run; and otherwise what is found in the
observations of the run on the arguments of the summary, if that is asked for. -/
theorem Function.diagnostics_of_analyze {f : Function} {checker : Overflow.Checker}
    {settings : Settings} {rep : FunctionReport} (h : f.analyze checker settings = .ok rep) :
    (rep.state = none ∧ rep.diagnostics = []) ∨
      ∃ summary r, f.body.summary = .ok summary ∧ f.body.interpret summary.arguments = .ok r ∧
        rep.state = some r.state ∧
        rep.diagnostics = if settings.checkOverflow then
            Overflow.checkAll (checker settings.solverTimeoutMs) f.name r.checked
          else [] := by
  obtain ⟨ex, hex, rfl⟩ := map_eq_ok.1 h
  rcases f.examine_cases with ⟨_, hstop, hstate⟩ | ⟨args, result, summary, hsummary, hbody⟩
  · obtain rfl := Except.ok.inj (hex.symm.trans hstop)
    refine .inl ⟨hstate checker settings, ?_⟩
    cases ex with
    | completed => cases hstate checker settings
    | _ => rfl
  · rw [hbody, examineBody] at hex
    split at hex
    · rename_i r hr
      cases hex
      exact .inr ⟨summary, r, hsummary, hr, rfl, rfl⟩
    · cases hex
      exact .inl ⟨rfl, rfl⟩
    · cases hex

namespace Body

/-- Different observations of a run have different texts for their locations. -/
theorem nodup_locations {b : Body} {args : List Value} {r : Run} (h : b.interpret args = .ok r) :
    (r.checked.map fun c => c.location.text).Nodup := by
  have hordered := (observed_of_interpret h).ordered
  have hnodup : (r.checked.map CheckedOp.location).Nodup := hordered.imp Location.ne_of_lt
  have htexts := List.Nodup.map Location.text_injective hnodup
  rw [List.map_map] at htexts
  exact htexts

/-- **Observations and diagnostics point at real statements, once each.**  Let the run of a body on
some arguments return.  Then

* the locations of what it has observed are in strictly increasing order;
* each of them is that of an assignment of a checked operation which the run has come to, with the
  observed operator, and with a left operand of the observed type;
* every assignment of a checked operation that the run comes to, and that has no fault, is observed.

The diagnostics of a function are those of the run on the arguments of its summary: their locations
are picked from what that run has observed, in the same order and without duplicates, and where
overflow is looked into, every observation whose verdict is that it may overflow, or that this is
not decided, is among them.  Without a run there are none. -/
theorem observations_located (b : Body) :
    (∀ args r, b.interpret args = .ok r →
      (r.checked.map CheckedOp.location).Pairwise (· < ·) ∧
      (∀ c ∈ r.checked, ∃ p left right e,
        b.statementAt? c.location = some (.assign p (.checked c.op left right)) ∧
        b.operandTy left = .ok c.ty ∧
        b.Reaches args c.location (.assign p (.checked c.op left right)) e ∧ e.observed = some c) ∧
      ∀ loc p op left right e, b.Reaches args loc (.assign p (.checked op left right)) e →
        e.fault = none →
        ∃ c ∈ r.checked, c.location = loc ∧ c.op = op ∧ b.operandTy left = .ok c.ty) ∧
    ∀ name checker settings rep, (⟨name, b⟩ : Function).analyze checker settings = .ok rep →
      (rep.state = none ∧ rep.diagnostics = []) ∨
        ∃ summary r, b.summary = .ok summary ∧ b.interpret summary.arguments = .ok r ∧
          rep.state = some r.state ∧
          (rep.diagnostics.map Diagnostic.location).Sublist
            (r.checked.map fun c => c.location.text) ∧
          (rep.diagnostics.map Diagnostic.location).Nodup ∧
          (settings.checkOverflow = true → ∀ c ∈ r.checked,
            (checker settings.solverTimeoutMs c).isAlarm = true →
            ∃ d ∈ rep.diagnostics, d.location = c.location.text) := by
  constructor
  · intro args r h
    have hobserved := observed_of_interpret h
    refine ⟨hobserved.ordered, ?_, ?_⟩
    · intro c hc
      obtain ⟨stmt, e, hreaches, he⟩ := hobserved.reached c hc
      obtain ⟨s, hrun⟩ := hreaches.run
      obtain ⟨-, p, left, right, rfl, hty⟩ := Statement.run_observed hrun he
      exact ⟨p, left, right, e, hreaches.statementAt?, hty, hreaches, he⟩
    · intro loc p op left right e hreaches hf
      obtain ⟨s, hrun⟩ := hreaches.run
      obtain ⟨l, r', w, ty, -, hty, he⟩ := Statement.observed_of_checked hrun hf
      have hkept := observed_of_reaches h hreaches
      rw [he] at hkept
      exact ⟨_, hkept (List.mem_singleton.2 rfl), rfl, rfl, hty⟩
  · intro name checker settings rep h
    rcases Function.diagnostics_of_analyze h with hnone |
      ⟨summary, r, hsummary, hr, hstate, hdiagnostics⟩
    · exact .inl hnone
    · have hsub : (rep.diagnostics.map Diagnostic.location).Sublist
          (r.checked.map fun c => c.location.text) := by
        rw [hdiagnostics]
        split
        · exact Overflow.sublist_locations _ name r.checked
        · exact List.nil_sublist _
      refine .inr ⟨summary, r, hsummary, hr, hstate, hsub, hsub.nodup (nodup_locations hr), ?_⟩
      intro hcheck c hc halarm
      rw [hdiagnostics, if_pos hcheck]
      exact Overflow.exists_diagnostic name hc halarm

/-- Both sums are observed, the second one although it cannot be written, and both are reported. -/
theorem observations_located_addTwice :
    (∃ r, addTwice.interpret (refillArgs 200) = .ok r ∧ r.checked.length = 2 ∧
      r.faults.length = 2 ∧ (r.checked.map CheckedOp.location).Pairwise (· < ·) ∧
      ∃ c ∈ r.checked, c.location = ⟨0, 0⟩ ∧ c.op = .add ∧
        addTwice.operandTy (.copy ⟨1, []⟩) = .ok c.ty) ∧
    ∃ rep, (⟨"addTwice", addTwice⟩ : Function).analyze Solver.ends.verdict {} = .ok rep ∧
      rep.diagnostics.length = 2 ∧ (rep.diagnostics.map Diagnostic.location).Nodup := by
  constructor
  · obtain ⟨r, hr⟩ : ∃ r, addTwice.interpret (refillArgs 200) = .ok r := ⟨_, rfl⟩
    have hlocated := (observations_located addTwice).1 _ _ hr
    have hfirst := hlocated.2.2 ⟨0, 0⟩ ⟨0, []⟩ .add (.copy ⟨1, []⟩) (.copy ⟨2, []⟩) _
      ⟨[], _, _, _, ⟨rfl, _, rfl, rfl⟩, .here rfl⟩ rfl
    refine ⟨r, hr, ?_, ?_, hlocated.1, hfirst⟩
    · cases hr
      rfl
    · cases hr
      rfl
  · obtain ⟨rep, hrep⟩ : ∃ rep,
        (⟨"addTwice", addTwice⟩ : Function).analyze Solver.ends.verdict {} = .ok rep := ⟨_, rfl⟩
    refine ⟨rep, hrep, ?_, ?_⟩
    · cases hrep
      rfl
    · rcases (observations_located addTwice).2 _ _ _ _ hrep with ⟨-, hnone⟩ |
        ⟨_, _, -, -, -, -, hnodup, -⟩
      · rw [hnone]
        exact .nil
      · exact hnodup

end Body

end MirRange
