import MirRange.Analysis
import MirRange.Proofs.Relations

/-!
# Wider arguments give wider runs

The order on values is a relation that the operators respect, as long as the bounds of the narrower
intervals are in order, and so is lying below values whose intervals are all unbounded, without any
condition.  By the first, runs are monotone in their arguments.  By the second, what is reported of
a function covers its runs on all arguments.

* `Value.Below`, `Value.Ordered`: the order on values, and values whose intervals have their bounds
  in order.
* `LeafRelation.order`, `LeafRelation.belowTop`: the two relations.
* `Body.interpret_below_top`: a run on any accepted arguments lies below the run on the greatest
  ones.
* `Body.interpret_monotone`: monotonicity, and what follows for reports.
-/

namespace MirRange

/-! ### The order as a relation -/

namespace Value

/-- A value lies below another of the same shape. -/
def Below (v w : Value) : Prop :=
  v.leq w = .ok true

mutual

/-- The intervals in a value. -/
def intervals : Value → List Interval
  | .int i => [i]
  | .uint i => [i]
  | .tuple items => intervalsAll items
  | _ => []

/-- The intervals in some values. -/
def intervalsAll : List Value → List Interval
  | [] => []
  | v :: vs => intervals v ++ intervalsAll vs

end

/-- All intervals in a value have their bounds in order. -/
def Ordered (v : Value) : Prop :=
  ∀ i ∈ v.intervals, i.Ordered

theorem mem_intervalsAll {items : List Value} {i : Interval} :
    i ∈ intervalsAll items ↔ ∃ v ∈ items, i ∈ v.intervals := by
  induction items with
  | nil => simp [intervalsAll]
  | cons v items ih => simp [intervalsAll, ih]

theorem Ordered.item {items : List Value} (h : (Value.tuple items).Ordered) {v : Value}
    (hv : v ∈ items) : v.Ordered :=
  fun i hi => h i (mem_intervalsAll.2 ⟨v, hv, hi⟩)

end Value

namespace LeafRelation

/-- A truth value or an ordered interval lies below another. -/
def order : LeafRelation where
  truth s t := s.leq t = true
  interval i j := i.Ordered ∧ i.leq j = true
  truth_refl := Truth.leq_refl
  interval_top := ⟨Interval.ordered_top, Interval.leq_refl _⟩
  add hi hj := ⟨Interval.add_ordered hi.1 hj.1, Interval.add_leq_add hi.2 hj.2⟩
  equals hi hj := Interval.equals_leq_equals hi.1 hj.1 hi.2 hj.2
  lessThan hi hj := Interval.lessThan_leq_lessThan hi.1 hj.1 hi.2 hj.2
  truth_equals hs ht := Truth.equals_leq_equals hs ht

/-- A truth value lies below another, and an interval below the unbounded one, for which every
comparison is open. -/
def belowTop : LeafRelation where
  truth s t := s.leq t = true
  interval _ j := j = .top
  truth_refl := Truth.leq_refl
  interval_top := rfl
  add := by
    rintro _ _ _ _ rfl rfl
    rfl
  equals := by
    rintro _ _ _ _ rfl rfl
    exact Truth.leq_top _
  lessThan := by
    rintro _ _ _ _ rfl rfl
    exact Truth.leq_top _
  truth_equals hs ht := Truth.equals_leq_equals hs ht

end LeafRelation

namespace Value

/-- Values related by relations within the order lie below each other. -/
theorem below_of_related {R : LeafRelation} (htruth : ∀ s t, R.truth s t → s.leq t = true)
    (hinterval : ∀ i j, R.interval i j → i.leq j = true) (v w : Value) (h : Related R v w) :
    v.Below w := by
  induction v using nestedInduction generalizing w with
  | bool s =>
    cases h with
    | bool ht => exact congrArg Except.ok (htruth _ _ ht)
  | int i =>
    cases h with
    | int hi => exact congrArg Except.ok (hinterval _ _ hi)
  | uint i =>
    cases h with
    | uint hi => exact congrArg Except.ok (hinterval _ _ hi)
  | tuple items ih =>
    cases h with
    | tuple hall => exact leq_tuple_iff.2 (forall₂_imp_mem hall fun v hv w hvw => ih v hv w hvw)
  | uninit =>
    cases h
    rfl

theorem below_of_related_order (v w : Value) (h : Related .order v w) : v.Below w :=
  below_of_related (R := .order) (fun _ _ ht => ht) (fun _ _ hi => hi.2) v w h

theorem below_of_related_belowTop (v w : Value) (h : Related .belowTop v w) : v.Below w := by
  refine below_of_related (fun _ _ ht => ht) ?_ v w h
  rintro i _ rfl
  exact Interval.leq_top i

/-- An ordered value below another is related to it. -/
theorem related_order_of_below {v w : Value} (hv : v.Ordered) (h : v.Below w) :
    Related .order v w := by
  induction v using nestedInduction generalizing w with
  | bool s => cases w <;> first | exact .bool (Except.ok.inj h) | cases h
  | int i =>
    cases w <;> first | exact .int ⟨hv i (List.mem_singleton.2 rfl), Except.ok.inj h⟩ | cases h
  | uint i =>
    cases w <;> first | exact .uint ⟨hv i (List.mem_singleton.2 rfl), Except.ok.inj h⟩ | cases h
  | tuple items ih =>
    cases w with
    | tuple items' =>
      have hall := leq_tuple_iff.1 h
      exact .tuple (forall₂_imp_mem hall fun v hmem w hvw => ih v hmem (hv.item hmem) hvw)
    | bool t => cases h
    | int j => cases h
    | uint j => cases h
    | uninit => cases h
  | uninit => cases w <;> first | exact .uninit | cases h

/-- A value that fits a type is related to the greatest value of the type. -/
theorem related_belowTop_of_fits {ty : Ty} {top : Value} (htop : ofTy ty = .ok top) :
    ∀ v : Value, v.fits ty = true → Related .belowTop v top := by
  refine ofTyInduction (P := fun ty top => ∀ v : Value, v.fits ty = true → Related .belowTop v top)
    ?_ ?_ ?_ ?_ htop
  · intro v hv
    cases v <;> first | exact .bool (Truth.leq_top _) | exact absurd hv Bool.false_ne_true
  · intro bits v hv
    cases v <;> first | exact .int rfl | exact absurd hv Bool.false_ne_true
  · intro bits v hv
    cases v <;> first | exact .uint rfl | exact absurd hv Bool.false_ne_true
  · intro fields tops hall v hv
    cases v with
    | tuple items =>
      exact .tuple (forall₂_comp (fitsAll_iff.1 hv) hall fun _ _ _ hfits hbelow => hbelow _ hfits)
    | _ => exact absurd hv Bool.false_ne_true

end Value

/-! ### Runs on the greatest arguments -/

namespace Body

variable {b : Body} {args : List Value}

/-- The greatest values of the argument types are accepted if any arguments are. -/
theorem accepts_of_ofTys (h : b.Accepts args) {tops : List Value}
    (htops : Value.ofTys b.argTypes = .ok tops) : b.Accepts tops := by
  obtain ⟨s, hs⟩ := h
  obtain ⟨hlocals, -, -⟩ := seed_eq_ok.1 hs
  exact ⟨_, seed_eq_ok.2 ⟨hlocals, Value.fits_of_ofTys htops, rfl⟩⟩

/-- **A run on any accepted arguments lies below the run on the greatest ones**, with the same
faults. -/
theorem interpret_below_top (h : b.Accepts args) {tops : List Value}
    (htops : Value.ofTys b.argTypes = .ok tops) :
    Agree (Run.Related Value.Below) (b.interpret args) (b.interpret tops) := by
  obtain ⟨s, hs⟩ := id h
  obtain ⟨-, hfits, -⟩ := seed_eq_ok.1 hs
  have hargs : List.Forall₂ (Value.Related .belowTop) args tops :=
    forall₂_comp hfits (Value.ofTys_eq_ok.1 htops) fun _ _ _ hfits hof =>
      Value.related_belowTop_of_fits hof _ hfits
  exact (interpret_related h (accepts_of_ofTys h htops) hargs).imp fun _ _ hrun =>
    hrun.imp Value.below_of_related_belowTop

/-- Runs on accepted arguments fail alike, whatever the arguments are. -/
theorem interpret_faults_agree {args' : List Value} (h : b.Accepts args) (h' : b.Accepts args') :
    Agree (fun r r' => r.faults = r'.faults) (b.interpret args) (b.interpret args') := by
  obtain ⟨s, hs⟩ := id h
  obtain ⟨-, hfits, -⟩ := seed_eq_ok.1 hs
  obtain ⟨tops, htops, -⟩ := Value.exists_ofTys_of_fits hfits
  have hagree := interpret_below_top h htops
  have hagree' := interpret_below_top h' htops
  cases htop : b.interpret tops with
  | ok top =>
    obtain ⟨r, hr, hrun⟩ := hagree.ok_right htop
    obtain ⟨r', hr', hrun'⟩ := hagree'.ok_right htop
    rw [hr, hr']
    exact .ok (hrun.faults.trans hrun'.faults.symm)
  | error e =>
    rw [hagree.error_right htop, hagree'.error_right htop]
    exact .error

theorem summary_arguments {summary : Summary} (h : b.summary = .ok summary) :
    Value.ofTys b.argTypes = .ok summary.arguments := by
  obtain ⟨⟨types, result⟩, hsignature, h⟩ := bind_eq_ok.1 h
  obtain ⟨tops, htops, h⟩ := bind_eq_ok.1 h
  obtain ⟨top, -, h⟩ := bind_eq_ok.1 h
  cases h
  obtain rfl : b.argTypes = types := by
    unfold signature at hsignature
    split at hsignature
    · cases hsignature
    · exact congrArg Prod.fst (Except.ok.inj hsignature)
  exact htops

end Body

namespace Function

/-- An examination stops without a state, or runs the body on the arguments of its summary. -/
theorem examine_cases (f : Function) :
    (∃ e, f.examine = .ok e ∧
      ∀ checker settings, (e.report checker settings f.name).state = none) ∨
      ∃ args result summary, f.body.summary = .ok summary ∧
        f.examine = examineBody f.body args result summary := by
  unfold examine
  split
  · split
    · exact .inl ⟨_, rfl, fun _ _ => rfl⟩
    · split
      · exact .inl ⟨_, rfl, fun _ _ => rfl⟩
      · rename_i args result _ _ summary hsummary
        exact .inr ⟨args, result, summary, hsummary, rfl⟩
  · exact .inl ⟨_, rfl, fun _ _ => rfl⟩

/-- **What an analysis can end in**: a report without a state; or, on the arguments of the summary,
the report of a run that returns or the violation of one that does not. -/
theorem analyze_cases (checker : Overflow.Checker) (settings : Settings) (f : Function) :
    (∃ rep, f.analyze checker settings = .ok rep ∧ rep.state = none) ∨
      ∃ summary, f.body.summary = .ok summary ∧
        ((∃ r rep, f.body.interpret summary.arguments = .ok r ∧
          f.analyze checker settings = .ok rep ∧ rep.state = some r.state ∧
          rep.statementErrors = r.faults.map fun fault => fault.problem.toDocument) ∨
        ∃ v, f.body.interpret summary.arguments = .error (.violation v) ∧
          f.analyze checker settings = .error v) := by
  unfold analyze
  rcases f.examine_cases with ⟨e, he, hstate⟩ | ⟨args, result, summary, hsummary, he⟩
  · rw [he]
    exact .inl ⟨_, rfl, hstate checker settings⟩
  · rw [he]
    unfold examineBody
    cases hrun : f.body.interpret summary.arguments with
    | ok r => exact .inr ⟨summary, hsummary, .inl ⟨r, _, hrun, rfl, rfl, rfl⟩⟩
    | error interrupt =>
      cases interrupt with
      | fault fault => exact .inl ⟨_, rfl, rfl⟩
      | violation v => exact .inr ⟨summary, hsummary, .inr ⟨v, hrun, rfl⟩⟩

end Function

/-! ### Monotonicity -/

namespace Body

variable {b : Body} {args : List Value}

/-- On accepted arguments only a violation keeps a body from returning. -/
theorem violation_of_accepts (h : b.Accepts args) {e : Interrupt}
    (he : b.interpret args = .error e) : ∃ v, e = .violation v := by
  obtain ⟨s, hs⟩ := h
  unfold interpret at he
  rw [hs] at he
  cases hrun : Run.blocks b 0 b.blocks (Run.start s) with
  | ok r =>
    simp only [hrun] at he
    cases he
  | error v =>
    simp only [hrun] at he
    exact ⟨v, (Except.error.inj he).symm⟩

/-- Runs that agree end with the same violation, or both return. -/
theorem violation_or_return {args' : List Value} (h' : b.Accepts args') {P : Run → Run → Prop}
    (hagree : Agree P (b.interpret args) (b.interpret args')) :
    (∃ v, b.interpret args = .error (.violation v) ∧ b.interpret args' = .error (.violation v)) ∨
      ∃ r r', b.interpret args = .ok r ∧ b.interpret args' = .ok r' ∧ P r r' := by
  cases hx' : b.interpret args' with
  | ok r' =>
    obtain ⟨r, hr, hrun⟩ := hagree.ok_right hx'
    exact .inr ⟨r, r', hr, rfl, hrun⟩
  | error e =>
    obtain ⟨v, rfl⟩ := violation_of_accepts h' hx'
    exact .inl ⟨v, hagree.error_right hx', rfl⟩

/-- **Interpretation is monotone.**  Let a body accept two lists of arguments, the first below the
second one by one and with its bounds in order.  Then either both runs end with the same violation,
or both return, and

* the final states bind the same locals, those of the first run to values below those of the second;
* the faults are equal;
* the observations agree one by one in location, operator and type, and their operands are in order.

The violation or the faults are the same for all accepted arguments, in order or not.  And the
analysis of a function covers them: if it ends with a violation, so does every run on accepted
arguments; if it reports a state, every such run returns, its state lies below the reported one, and
its faults are the ones reported. -/
theorem interpret_monotone (b : Body) :
    (∀ args args', b.Accepts args → b.Accepts args' → (∀ v ∈ args, v.Ordered) →
      List.Forall₂ Value.Below args args' →
      (∃ v, b.interpret args = .error (.violation v) ∧
        b.interpret args' = .error (.violation v)) ∨
      ∃ r r', b.interpret args = .ok r ∧ b.interpret args' = .ok r' ∧
        (∀ n, Option.Rel Value.Below (r.state.get? n) (r'.state.get? n)) ∧
        r.faults = r'.faults ∧
        List.Forall₂ (CheckedOp.Related Value.Below) r.checked r'.checked) ∧
    (∀ args args', b.Accepts args → b.Accepts args' →
      (∃ v, b.interpret args = .error (.violation v) ∧
        b.interpret args' = .error (.violation v)) ∨
      ∃ r r', b.interpret args = .ok r ∧ b.interpret args' = .ok r' ∧ r.faults = r'.faults) ∧
    ∀ name checker settings,
      (∀ v, Function.analyze checker settings ⟨name, b⟩ = .error v →
        ∀ args, b.Accepts args → b.interpret args = .error (.violation v)) ∧
      ∀ rep s, Function.analyze checker settings ⟨name, b⟩ = .ok rep → rep.state = some s →
        ∀ args, b.Accepts args → ∃ r, b.interpret args = .ok r ∧
          (∀ n, Option.Rel Value.Below (r.state.get? n) (s.get? n)) ∧
          rep.statementErrors = r.faults.map fun f => f.problem.toDocument := by
  refine ⟨?_, fun _ _ h h' => violation_or_return h' (interpret_faults_agree h h'), ?_⟩
  · intro args args' h h' hordered hbelow
    have hargs : List.Forall₂ (Value.Related .order) args args' :=
      forall₂_imp_mem hbelow fun v hv _ hvw => Value.related_order_of_below (hordered v hv) hvw
    have hagree := (interpret_related h h' hargs).imp fun _ _ hrun =>
      hrun.imp Value.below_of_related_order
    rcases violation_or_return h' hagree with hviolation | ⟨r, r', hr, hr', hrun⟩
    · exact .inl hviolation
    · exact .inr ⟨r, r', hr, hr', hrun.state, hrun.faults, hrun.checked⟩
  · intro name checker settings
    rcases Function.analyze_cases checker settings ⟨name, b⟩ with ⟨rep, hrep, hnone⟩ |
      ⟨summary, hsummary, ⟨top, rep, htop, hrep, hstate, herrors⟩ | ⟨v, htop, hv⟩⟩
    · rw [hrep]
      refine ⟨nofun, ?_⟩
      intro rep' s h hs
      cases h
      rw [hnone] at hs
      cases hs
    · rw [hrep]
      refine ⟨nofun, ?_⟩
      intro rep' s h hs args hargs
      cases h
      obtain ⟨r, hr, hrun⟩ :=
        (interpret_below_top hargs (summary_arguments hsummary)).ok_right htop
      obtain rfl : top.state = s := Option.some.inj (hstate.symm.trans hs)
      exact ⟨r, hr, hrun.state, hrun.faults ▸ herrors⟩
    · rw [hv]
      refine ⟨?_, nofun⟩
      intro v' h args hargs
      cases h
      exact (interpret_below_top hargs (summary_arguments hsummary)).error_right htop

/-- A body that compares and adds its two arguments, and then has a block that is abandoned. -/
def compareAdd : Body where
  blocks := [
    [.assign ⟨3, []⟩ (.binary .lt (.copy ⟨2, []⟩) (.copy ⟨1, []⟩)),
      .assign ⟨0, []⟩ (.checked .add (.copy ⟨1, []⟩) (.copy ⟨2, []⟩))],
    [.nop]]
  locals := [⟨.tuple [.uint 8, .bool], false⟩, ⟨.uint 8, false⟩, ⟨.uint 8, false⟩, ⟨.bool, false⟩]
  argCount := 2

/-- Three runs of `compareAdd`, each below the next: on narrow arguments, on wider ones, and on the
greatest ones, where the comparison is no longer decided. -/
theorem interpret_monotone_compareAdd :
    ∃ r r' rep s, compareAdd.interpret (refillArgs 120) = .ok r ∧
      compareAdd.interpret (refillArgs 200) = .ok r' ∧
      Function.analyze Solver.ends.verdict {} ⟨"compare_add", compareAdd⟩ = .ok rep ∧
      rep.state = some s ∧
      r'.state.get? 3 = some (.bool .true) ∧ s.get? 3 = some (.bool .top) ∧
      (∀ n, Option.Rel Value.Below (r.state.get? n) (r'.state.get? n)) ∧
      (∀ n, Option.Rel Value.Below (r'.state.get? n) (s.get? n)) ∧
      r.faults = r'.faults ∧ r.faults.length = 1 ∧ rep.statementErrors.length = 1 := by
  obtain ⟨r, hr⟩ : ∃ r, compareAdd.interpret (refillArgs 120) = .ok r := ⟨_, rfl⟩
  obtain ⟨r', hr'⟩ : ∃ r, compareAdd.interpret (refillArgs 200) = .ok r := ⟨_, rfl⟩
  obtain ⟨rep, hrep⟩ : ∃ rep,
      Function.analyze Solver.ends.verdict {} ⟨"compare_add", compareAdd⟩ = .ok rep := ⟨_, rfl⟩
  obtain ⟨s, hs⟩ : ∃ s, rep.state = some s := by
    cases hrep
    exact ⟨_, rfl⟩
  obtain ⟨hmonotone, -, hanalyze⟩ := interpret_monotone compareAdd
  have hordered : ∀ v ∈ refillArgs 120, v.Ordered := by
    intro v hv i hi
    simp only [refillArgs, List.mem_cons, List.not_mem_nil, or_false] at hv
    rcases hv with rfl | rfl
    · obtain rfl := List.mem_singleton.1 hi
      rfl
    · obtain rfl := List.mem_singleton.1 hi
      rfl
  have hbelow : List.Forall₂ Value.Below (refillArgs 120) (refillArgs 200) :=
    .cons rfl (.cons rfl .nil)
  rcases hmonotone _ _ ⟨_, rfl⟩ ⟨_, rfl⟩ hordered hbelow with ⟨v, hv, -⟩ | ⟨r₁, r₂, h₁, h₂, hrun⟩
  · rw [hr] at hv
    cases hv
  · obtain rfl := Except.ok.inj (hr.symm.trans h₁)
    obtain rfl := Except.ok.inj (hr'.symm.trans h₂)
    obtain ⟨r₃, h₃, hstate, herrors⟩ :=
      (hanalyze "compare_add" _ _).2 rep s hrep hs (refillArgs 200) ⟨_, rfl⟩
    obtain rfl := Except.ok.inj (hr'.symm.trans h₃)
    refine ⟨r, r', rep, s, hr, hr', hrep, hs, ?_, ?_, hrun.1, hstate, hrun.2.1, ?_, ?_⟩
    · cases hr'
      rfl
    · cases hrep
      cases hs
      rfl
    · cases hr
      rfl
    · rw [herrors, List.length_map]
      cases hr'
      rfl

end Body

end MirRange
