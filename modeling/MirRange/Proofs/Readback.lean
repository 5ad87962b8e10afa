import MirRange.Proofs.Lattice
import MirRange.Proofs.Monotonicity

/-!
# Values that can be read back

A value is read from a document only if the bounds of its intervals are in order, so a printed value
can be read back exactly if they are.  They always are: what is read has ordered intervals, every
operation on values keeps them ordered, and so does a run, however its bounds are added up.

* `Value.ofDocument_eq_ok`: a document is read as a value if it is the form of the value and the
  intervals of the value are ordered.
* `Value.combine_ordered`, `Value.set_ordered`, `Value.top_ordered`: the operations on values.
* `Value.ordered_iff_related`: being ordered is a relation of a value with itself, so that runs keep
  it as they keep related states related (`Body.ordered_of_interpret`).
* `State.Distinct`: every local is bound once, so all that a state lists can be looked up.
* `Body.values_readable`: what is printed of a run can be read back.
-/

namespace MirRange

/-! ### Reading bounds and intervals -/

theorem Bound.ofDocument_eq_ok {d : Document} {a : Bound} :
    Bound.ofDocument d = .ok a ↔ a.toDocument = d := by
  constructor
  · intro h
    cases d with
    | int n => rw [← Except.ok.inj h]; rfl
    | text s =>
      rw [Bound.ofDocument] at h
      split at h
      · rename_i hs
        rw [← Except.ok.inj h, hs]
        rfl
      · split at h
        · rename_i hs
          rw [← Except.ok.inj h, hs]
          rfl
        · cases h
    | null => cases h
    | bool b => cases h
    | float x => cases h
    | list items => cases h
    | object members => cases h
  · intro h
    rw [← h]
    cases a with
    | negInf => rfl
    | fin n => rfl
    | posInf => rfl

theorem Interval.ofDocument_eq_ok {d : Document} {i : Interval} :
    Interval.ofDocument d = .ok i ↔ i.toDocument = d ∧ i.Ordered := by
  constructor
  · intro h
    unfold Interval.ofDocument at h
    split at h
    · rename_i a b
      obtain ⟨lower, hlower, h⟩ := bind_eq_ok.1 h
      obtain ⟨upper, hupper, h⟩ := bind_eq_ok.1 h
      split at h
      · cases h
      · rename_i hlt
        have hi : ⟨lower, upper⟩ = i := Except.ok.inj h
        rw [← hi]
        refine ⟨?_, Bound.le_of_not_lt hlt⟩
        rw [Interval.toDocument, Bound.ofDocument_eq_ok.1 hlower, Bound.ofDocument_eq_ok.1 hupper]
    · cases h
  · intro h
    have hread : ∀ a : Bound, Bound.ofDocument a.toDocument = .ok a :=
      fun a => Bound.ofDocument_eq_ok.2 rfl
    rw [← h.1, Interval.toDocument, Interval.ofDocument, bind_eq_ok]
    refine ⟨i.lower, hread _, bind_eq_ok.2 ⟨i.upper, hread _, ?_⟩⟩
    rw [if_neg (Bound.not_lt_of_le h.2)]
    rfl

theorem Truth.ofText?_eq_some {s : String} {t : Truth} : ofText? s = some t ↔ t.text = s := by
  constructor
  · intro h
    have hfound := List.find?_some h
    simpa using hfound
  · intro h
    rw [← h]
    cases t <;> rfl

/-! ### Reading values -/

namespace Value

theorem toDocuments_eq_map (items : List Value) : toDocuments items = items.map toDocument := by
  induction items with
  | nil => rfl
  | cons v items ih => rw [toDocuments, ih, List.map_cons]

theorem ofDocuments_eq_ok {ds : List Document} {items : List Value} :
    ofDocuments ds = .ok items ↔ List.Forall₂ (fun d v => ofDocument d = .ok v) ds items := by
  induction ds generalizing items with
  | nil => cases items <;> simp [ofDocuments]
  | cons d ds ih =>
    rw [ofDocuments, bind_eq_ok, List.forall₂_cons_left_iff]
    constructor
    · intro ⟨v, hv, h⟩
      obtain ⟨vs, hvs, h⟩ := bind_eq_ok.1 h
      exact ⟨v, vs, hv, ih.1 hvs, (Except.ok.inj h).symm⟩
    · intro ⟨v, vs, hv, hvs, hitems⟩
      rw [hitems]
      exact ⟨v, hv, bind_eq_ok.2 ⟨vs, ih.2 hvs, rfl⟩⟩

theorem ordered_tuple_iff {items : List Value} :
    (Value.tuple items).Ordered ↔ ∀ v ∈ items, v.Ordered := by
  constructor
  · intro h v hv
    exact h.item hv
  · intro h i hi
    obtain ⟨v, hv, hi⟩ := mem_intervalsAll.1 hi
    exact h v hv i hi

theorem ordered_int_iff {i : Interval} : (Value.int i).Ordered ↔ i.Ordered :=
  List.forall_mem_singleton

theorem ordered_uint_iff {i : Interval} : (Value.uint i).Ordered ↔ i.Ordered :=
  List.forall_mem_singleton

theorem readLeaf_eq_ok {kind : String} {d : Document} {v : Value} (h : readLeaf kind d = .ok v) :
    Document.object [(kind, d)] = v.toDocument ∧ v.Ordered := by
  unfold readLeaf at h
  split at h
  · rename_i hkind
    unfold readTruth at h
    split at h
    · split at h
      · rename_i t ht
        have hv : Value.bool t = v := Except.ok.inj h
        rw [← hv, hkind, toDocument, Truth.ofText?_eq_some.1 ht]
        exact ⟨rfl, nofun⟩
      · cases h
    · cases h
  · split at h
    · rename_i hkind
      obtain ⟨i, hi, hv⟩ := map_eq_ok.1 h
      obtain ⟨hdoc, hordered⟩ := Interval.ofDocument_eq_ok.1 hi
      rw [← hv, hkind, toDocument, hdoc]
      exact ⟨rfl, ordered_int_iff.2 hordered⟩
    · split at h
      · rename_i hkind
        obtain ⟨i, hi, hv⟩ := map_eq_ok.1 h
        obtain ⟨hdoc, hordered⟩ := Interval.ofDocument_eq_ok.1 hi
        rw [← hv, hkind, toDocument, hdoc]
        exact ⟨rfl, ordered_uint_iff.2 hordered⟩
      · cases h

/-- What a document can be read as: a mark, a tuple of what its items are read as, or a value
without parts. -/
theorem ofDocument_cases {d : Document} {v : Value} (h : ofDocument d = .ok v) :
    (d = .text "uninit" ∧ v = .uninit) ∨
    (∃ ds items, d = .object [("tuple", .list ds)] ∧ v = .tuple items ∧
      List.Forall₂ (fun d v => ofDocument d = .ok v) ds items) ∨
    ∃ kind leaf, d = .object [(kind, leaf)] ∧ readLeaf kind leaf = .ok v := by
  unfold ofDocument at h
  split at h
  · split at h
    · rename_i hs
      rw [hs]
      exact .inl ⟨rfl, (Except.ok.inj h).symm⟩
    · cases h
  · rename_i kind ds
    split at h
    · rename_i hkind
      obtain ⟨items, hitems, hv⟩ := map_eq_ok.1 h
      rw [hkind]
      exact .inr (.inl ⟨ds, items, rfl, hv.symm, ofDocuments_eq_ok.1 hitems⟩)
    · exact .inr (.inr ⟨kind, .list ds, rfl, h⟩)
  · rename_i kind leaf _
    exact .inr (.inr ⟨kind, leaf, rfl, h⟩)
  · cases h

/-- What is read has the document as its form, and ordered intervals. -/
theorem toDocument_of_ofDocument {d : Document} {v : Value} (h : ofDocument d = .ok v) :
    v.toDocument = d ∧ v.Ordered := by
  have hleaf : ∀ {d v}, ofDocument d = .ok v → v.variant ≠ .tuple →
      v.toDocument = d ∧ v.Ordered := by
    intro d v h hv
    rcases ofDocument_cases h with ⟨hd, rfl⟩ | ⟨ds, items, -, rfl, -⟩ | ⟨kind, leaf, hd, hread⟩
    · exact ⟨hd.symm, nofun⟩
    · exact absurd rfl hv
    · obtain ⟨hdoc, hordered⟩ := readLeaf_eq_ok hread
      exact ⟨hdoc.symm.trans hd.symm, hordered⟩
  induction v using nestedInduction generalizing d with
  | bool t => exact hleaf h nofun
  | int i => exact hleaf h nofun
  | uint i => exact hleaf h nofun
  | tuple items ih =>
    rcases ofDocument_cases h with ⟨-, hv⟩ | ⟨ds, items', hd, hv, hall⟩ | ⟨kind, leaf, hd, hread⟩
    · cases hv
    · obtain rfl : items = items' := Value.tuple.inj hv
      have hread : List.Forall₂ (fun v d => v.toDocument = d ∧ v.Ordered) items ds :=
        forall₂_imp_mem hall.flip fun v hmem d hd => ih v hmem hd
      have hdocs : items.map toDocument = ds := by
        rw [← List.forall₂_eq_eq_eq, List.forall₂_map_left_iff]
        exact hread.imp fun _ _ hv => hv.1
      refine ⟨by rw [toDocument, toDocuments_eq_map, hdocs, hd], ordered_tuple_iff.2 ?_⟩
      intro v hmem
      obtain ⟨n, hn⟩ := List.getElem?_of_mem hmem
      obtain ⟨_, _, hv⟩ := getElem?_of_forall₂ hread hn
      exact hv.2
    · obtain ⟨hdoc, hordered⟩ := readLeaf_eq_ok hread
      exact ⟨hdoc.symm.trans hd.symm, hordered⟩
  | uninit => exact hleaf h nofun

/-- The form of a value with ordered intervals is read as the value. -/
theorem ofDocument_toDocument {v : Value} (h : v.Ordered) : ofDocument v.toDocument = .ok v := by
  induction v using nestedInduction with
  | bool t => cases t <;> rfl
  | int i =>
    have hi : Interval.ofDocument i.toDocument = .ok i :=
      Interval.ofDocument_eq_ok.2 ⟨rfl, ordered_int_iff.1 h⟩
    show (Interval.ofDocument i.toDocument).map Value.int = .ok (.int i)
    rw [hi]
    rfl
  | uint i =>
    have hi : Interval.ofDocument i.toDocument = .ok i :=
      Interval.ofDocument_eq_ok.2 ⟨rfl, ordered_uint_iff.1 h⟩
    show (Interval.ofDocument i.toDocument).map Value.uint = .ok (.uint i)
    rw [hi]
    rfl
  | tuple items ih =>
    have hitems : ofDocuments (toDocuments items) = .ok items := by
      rw [toDocuments_eq_map, ofDocuments_eq_ok, List.forall₂_map_left_iff]
      exact List.forall₂_same.2 fun v hv => ih v hv (h.item hv)
    show (ofDocuments (toDocuments items)).map Value.tuple = .ok (.tuple items)
    rw [hitems]
    rfl
  | uninit => rfl

/-- **A document is read as a value exactly if it is the form of the value, and the intervals of the
value are ordered.** -/
theorem ofDocument_eq_ok {d : Document} {v : Value} :
    ofDocument d = .ok v ↔ v.toDocument = d ∧ v.Ordered := by
  constructor
  · exact toDocument_of_ofDocument
  · intro h
    rw [← h.1]
    exact ofDocument_toDocument h.2

end Value

/-! ### Operations on values -/

theorem Interval.join_ordered {i j : Interval} (hi : i.Ordered) : (i.join j).Ordered := by
  have hlower : Bound.le (i.join j).lower i.lower = true := (Bound.le_min_iff.1 (Bound.le_refl _)).1
  have hupper : Bound.le i.upper (i.join j).upper = true := (Bound.max_le_iff.1 (Bound.le_refl _)).1
  exact Bound.le_trans hlower (Bound.le_trans hi hupper)

theorem Interval.widen_ordered {i j : Interval} (hi : i.Ordered) : (i.widen j).Ordered := by
  unfold Interval.Ordered Interval.widen
  dsimp only
  split
  · exact Bound.negInf_le _
  · split
    · exact Bound.le_posInf _
    · exact hi

namespace Value

/-- Combining values keeps their intervals ordered if combining intervals does. -/
theorem combine_ordered {f : Truth → Truth → Truth} {g : Interval → Interval → Interval}
    (hg : ∀ i j, i.Ordered → (g i j).Ordered) {a b c : Value} (h : combine f g a b = .ok c)
    (ha : a.Ordered) : c.Ordered := by
  refine combineInduction (P := fun a _ c => a.Ordered → c.Ordered) ?_ ?_ ?_ ?_ ?_ h ha
  · exact fun _ _ _ => nofun
  · exact fun i j hi => ordered_int_iff.2 (hg i j (ordered_int_iff.1 hi))
  · exact fun i j hi => ordered_uint_iff.2 (hg i j (ordered_uint_iff.1 hi))
  · intro as bs cs hall has
    have hitems : List.Forall₂ (fun a c => a.Ordered → c.Ordered) as cs :=
      hall.outer fun _ _ _ h => h
    refine ordered_tuple_iff.2 fun c hc => ?_
    obtain ⟨n, hn⟩ := List.getElem?_of_mem hc
    obtain ⟨a, ha, hac⟩ := getElem?_of_forall₂ hitems.flip hn
    exact hac (has.item (List.mem_of_getElem? ha))
  · exact fun h => h

theorem set_ordered {v w u : Value} {i : Int} (h : v.set i w = .ok u) (hv : v.Ordered)
    (hw : w.Ordered) : u.Ordered := by
  cases v with
  | tuple items =>
    rw [Value.set] at h
    split at h
    · rw [← Except.ok.inj h]
      refine ordered_tuple_iff.2 fun x hx => ?_
      rcases List.mem_or_eq_of_mem_set hx with hx | rfl
      · exact hv.item hx
      · exact hw
    · cases h
  | bool t => cases h
  | int i => cases h
  | uint i => cases h
  | uninit => cases h

theorem top_ordered (v : Value) : v.top.Ordered := by
  induction v using nestedInduction with
  | bool t => exact nofun
  | int i => exact ordered_int_iff.2 Interval.ordered_top
  | uint i => exact ordered_uint_iff.2 Interval.ordered_top
  | tuple items ih =>
    rw [top_tuple]
    refine ordered_tuple_iff.2 fun v hv => ?_
    obtain ⟨w, hw, rfl⟩ := List.mem_map.1 hv
    exact ih w hw
  | uninit => exact nofun

/-- Having ordered intervals is a relation of a value with itself. -/
theorem ordered_iff_related {v : Value} : v.Ordered ↔ Related .order v v := by
  constructor
  · intro h
    exact related_order_of_below h (leq_self v)
  · intro h
    induction v using nestedInduction with
    | bool t => exact nofun
    | int i =>
      cases h with
      | int hi => exact ordered_int_iff.2 hi.1
    | uint i =>
      cases h with
      | uint hi => exact ordered_uint_iff.2 hi.1
    | tuple items ih =>
      cases h with
      | tuple hall => exact ordered_tuple_iff.2 fun v hv => ih v hv (List.forall₂_same.1 hall v hv)
    | uninit => exact nofun

end Value

/-! ### States -/

namespace State

/-- Every local is bound once. -/
def Distinct (s : State) : Prop :=
  (s.bindings.map Prod.fst).Nodup

theorem mem_keys_insert {l : List (Local × Value)} {n k : Local} {v : Value}
    (h : k ∈ (insert l n v).map Prod.fst) : k = n ∨ k ∈ l.map Prod.fst := by
  induction l with
  | nil => exact .inl (List.mem_singleton.1 h)
  | cons b rest ih =>
    obtain ⟨m, old⟩ := b
    by_cases hm : m = n
    · rw [insert, if_pos hm] at h
      exact .inr h
    · rw [insert, if_neg hm, List.map_cons, List.mem_cons] at h
      rcases h with hk | hk
      · exact .inr (List.mem_cons.2 (.inl hk))
      · exact (ih hk).imp id fun hmem => List.mem_cons_of_mem _ hmem

theorem Distinct.set {s : State} (hs : s.Distinct) (n : Local) (v : Value) :
    (s.set n v).Distinct := by
  obtain ⟨l⟩ := s
  show ((insert l n v).map Prod.fst).Nodup
  have hl : (l.map Prod.fst).Nodup := hs
  induction l with
  | nil => simp [insert]
  | cons b rest ih =>
    obtain ⟨m, old⟩ := b
    rw [List.map_cons, List.nodup_cons] at hl
    by_cases hm : m = n
    · rw [insert, if_pos hm]
      exact List.nodup_cons.2 hl
    · rw [insert, if_neg hm, List.map_cons, List.nodup_cons]
      refine ⟨?_, ih hl.2 hl.2⟩
      intro hmem
      rcases mem_keys_insert hmem with hmn | hrest
      · exact hm hmn
      · exact hl.1 hrest

theorem Distinct.bindAll {s : State} (hs : s.Distinct) (ns : List Local) (vs : List Value) :
    (s.bindAll ns vs).Distinct := by
  induction ns generalizing s vs with
  | nil => exact hs
  | cons n ns ih =>
    cases vs with
    | nil => exact hs
    | cons v vs => exact ih (hs.set n v) vs

theorem Distinct.store {s : State} (hs : s.Distinct) (b : Body) (p : Place) (v : Value)
    (observed : Option CheckedOp) : (s.store b p v observed).state.Distinct := by
  unfold State.store
  split
  · rename_i s' hwrite
    obtain ⟨changed, rfl, -⟩ := write_eq_ok hwrite
    exact hs.set p.base changed
  · exact hs

/-- In a state that binds every local once, all bindings are found by look-up. -/
theorem Distinct.get?_of_mem {s : State} (hs : s.Distinct) {n : Local} {v : Value}
    (h : (n, v) ∈ s.bindings) : s.get? n = some v := by
  obtain ⟨l⟩ := s
  show lookup l n = some v
  have hl : (l.map Prod.fst).Nodup := hs
  induction l with
  | nil => cases h
  | cons b rest ih =>
    obtain ⟨m, old⟩ := b
    rw [List.map_cons, List.nodup_cons] at hl
    rcases List.mem_cons.1 h with heq | hmem
    · cases heq
      rw [lookup, if_pos rfl]
    · have hmn : m ≠ n := by
        intro hmn
        rw [hmn] at hl
        exact hl.1 (List.mem_map.2 ⟨(n, v), hmem, rfl⟩)
      rw [lookup, if_neg hmn]
      exact ih hl.2 hmem hl.2

end State

/-! ### Runs -/

/-- A value with ordered intervals, which is what its document is read as. -/
def Value.ReadsBack (v : Value) : Prop :=
  v.Ordered ∧ Value.ofDocument v.toDocument = .ok v

theorem Value.Ordered.readsBack {v : Value} (h : v.Ordered) : v.ReadsBack :=
  ⟨h, ofDocument_toDocument h⟩

namespace Body

variable {b : Body} {args : List Value} {r : Run}

theorem distinct_of_seed {s : State} (h : b.seed args = .ok s) : s.Distinct := by
  obtain ⟨-, -, rfl⟩ := seed_eq_ok.1 h
  have hempty : State.empty.Distinct := List.nodup_nil
  exact hempty.bindAll b.argLocals args

/-- A run binds every local once. -/
theorem distinct_of_interpret (h : b.interpret args = .ok r) : r.state.Distinct := by
  obtain ⟨s, hs, hrun⟩ := interpret_eq_ok.1 h
  refine Run.blocks_preserve (P := fun r => r.state.Distinct) ?_ hrun (distinct_of_seed hs)
  intro stmts _ stmt _ loc r e hr he
  rcases Statement.run_eq_ok he with ⟨p, rv, v, observed, -, -, rfl⟩ | ⟨p, -, rfl⟩ | ⟨f, rfl⟩
  · exact hr.store b p v observed
  · exact hr.store b p .uninit none
  · exact hr

/-- **A run on ordered arguments has ordered values only.**  It is a run beside itself on arguments
related to themselves. -/
theorem ordered_of_interpret (hargs : ∀ v ∈ args, v.Ordered) (h : b.interpret args = .ok r) :
    (∀ n v, (n, v) ∈ r.state.bindings → v.Ordered) ∧
      ∀ c ∈ r.checked, c.left.Ordered ∧ c.right.Ordered := by
  have haccepts : b.Accepts args := by
    obtain ⟨s, hs, -⟩ := interpret_eq_ok.1 h
    exact ⟨s, hs⟩
  have hself : List.Forall₂ (Value.Related .order) args args :=
    List.forall₂_same.2 fun v hv => Value.ordered_iff_related.1 (hargs v hv)
  have hagree := interpret_related haccepts haccepts hself
  obtain ⟨r', hr', hrun⟩ := hagree.ok_right h
  obtain rfl : r' = r := Except.ok.inj (hr'.symm.trans h)
  constructor
  · intro n v hmem
    have hn := hrun.state n
    rw [(distinct_of_interpret h).get?_of_mem hmem] at hn
    cases hn with
    | some hv => exact Value.ordered_iff_related.2 hv
  · intro c hc
    have hrelated := List.forall₂_same.1 hrun.checked c hc
    exact ⟨Value.ordered_iff_related.2 hrelated.left, Value.ordered_iff_related.2 hrelated.right⟩

/-- The arguments of a summary are ordered. -/
theorem ordered_of_summary {summary : Summary} (h : b.summary = .ok summary) :
    ∀ v ∈ summary.arguments, v.Ordered := by
  intro v hv
  have htops := Value.ofTys_eq_ok.1 (summary_arguments h)
  obtain ⟨n, hn⟩ := List.getElem?_of_mem hv
  obtain ⟨ty, -, hty⟩ := getElem?_of_forall₂ htops.flip hn
  exact Value.ordered_iff_related.2 (Value.related_of_ofTy hty)

/-- **Whatever is printed of a run can be read back.**  Let a body be run on arguments that were
read from documents, or on those of its summary.  Then all values that the final state binds and all
operands that were observed have intervals with their bounds in order, and are what their documents
are read as.

Joining, widening and replacing an item keep the bounds of intervals in order, and so does going to
the greatest value of a shape. -/
theorem values_readable (b : Body) :
    (∀ args r, ((∀ v ∈ args, ∃ d, Value.ofDocument d = .ok v) ∨
        ∃ summary, b.summary = .ok summary ∧ args = summary.arguments) →
      b.interpret args = .ok r →
      (∀ n v, (n, v) ∈ r.state.bindings → v.ReadsBack) ∧
        ∀ c ∈ r.checked, c.left.ReadsBack ∧ c.right.ReadsBack) ∧
    (∀ v w u : Value, v.Ordered → w.Ordered →
      v.join w = .ok u ∨ v.widen w = .ok u ∨ (∃ i, v.set i w = .ok u) ∨ v.top = u →
      u.Ordered) := by
  constructor
  · intro args r hargs h
    have hordered : ∀ v ∈ args, v.Ordered := by
      intro v hv
      rcases hargs with hread | ⟨summary, hsummary, rfl⟩
      · obtain ⟨d, hd⟩ := hread v hv
        exact (Value.toDocument_of_ofDocument hd).2
      · exact ordered_of_summary hsummary v hv
    obtain ⟨hstate, hchecked⟩ := ordered_of_interpret hordered h
    exact ⟨fun n v hmem => (hstate n v hmem).readsBack,
      fun c hc => ⟨(hchecked c hc).1.readsBack, (hchecked c hc).2.readsBack⟩⟩
  · intro v w u hv hw hu
    rcases hu with hjoin | hwiden | ⟨i, hset⟩ | rfl
    · exact Value.combine_ordered (fun _ _ => Interval.join_ordered) hjoin hv
    · exact Value.combine_ordered (fun _ _ => Interval.widen_ordered) hwiden hv
    · exact Value.set_ordered hset hv hw
    · exact Value.top_ordered v

/-- The document of the unsigned integers from one bound to the same bound. -/
def infiniteDocument (bound : String) : Document :=
  .object [("uint", .list [.text bound, .text bound])]

/-- Of two arguments that are read as intervals without integers, `compareAdd` has a sum with both
bounds at the lower end, and it can be read back. -/
theorem values_readable_compareAdd :
    ∃ v w r, Value.ofDocument (infiniteDocument "+inf") = .ok v ∧
      Value.ofDocument (infiniteDocument "-inf") = .ok w ∧ compareAdd.interpret [v, w] = .ok r ∧
      (0, .tuple [.uint ⟨.negInf, .negInf⟩, .bool .false]) ∈ r.state.bindings ∧
      (Value.tuple [.uint ⟨.negInf, .negInf⟩, .bool .false]).ReadsBack ∧
      (∀ c ∈ r.checked, c.left.ReadsBack ∧ c.right.ReadsBack) ∧
      ∃ u, v.join w = .ok u ∧ u.Ordered := by
  obtain ⟨v, hv⟩ : ∃ v, Value.ofDocument (infiniteDocument "+inf") = .ok v := ⟨_, rfl⟩
  obtain ⟨w, hw⟩ : ∃ w, Value.ofDocument (infiniteDocument "-inf") = .ok w := ⟨_, rfl⟩
  have hread : ∀ x ∈ [v, w], ∃ d, Value.ofDocument d = .ok x := by
    intro x hx
    rcases List.mem_cons.1 hx with rfl | hx
    · exact ⟨_, hv⟩
    · rw [List.mem_singleton.1 hx]
      exact ⟨_, hw⟩
  obtain ⟨u, hu⟩ : ∃ u, v.join w = .ok u := by
    cases hv
    cases hw
    exact ⟨_, rfl⟩
  obtain ⟨r, hr⟩ : ∃ r, compareAdd.interpret [v, w] = .ok r := by
    cases hv
    cases hw
    exact ⟨_, rfl⟩
  have hsum : (0, .tuple [.uint ⟨.negInf, .negInf⟩, .bool .false]) ∈ r.state.bindings := by
    cases hv
    cases hw
    cases hr
    exact List.mem_of_getElem? (i := 3) rfl
  obtain ⟨hrun, hoperations⟩ := values_readable compareAdd
  obtain ⟨hstate, hchecked⟩ := hrun [v, w] r (.inl hread) hr
  have hordered : ∀ {d x}, Value.ofDocument d = .ok x → x.Ordered :=
    fun h => (Value.ofDocument_eq_ok.1 h).2
  exact ⟨v, w, r, hv, hw, hr, hsum, hstate _ _ hsum, hchecked, u, hu,
    hoperations v w u (hordered hv) (hordered hw) (.inl hu)⟩

end Body

end MirRange
