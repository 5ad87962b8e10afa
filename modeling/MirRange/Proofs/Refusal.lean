import MirRange.Proofs.Readback

/-!
# Documents that are no values

A document is read as the value that it is the form of, if the intervals of that value are ordered.
Here it is said why any other document is refused: in words of the forms of values, without the
reader, and down to the part at fault.  As the refusals are exactly the failures of the reader,
reading and writing are inverse to each other on what is not refused.

* `Interval.Refused`, `Value.Refused`: why a document is no interval and no value.
* `Value.ofDocuments_eq_error`: a list of documents fails at the first one that does.
* `Value.ofDocument_eq_error`: the reader fails exactly where a document is refused.
* `Value.ofDocument_inverts_toDocument`: reading and writing are inverse to each other.
-/

namespace MirRange

/-! ### Bounds and intervals -/

/-- A document that is no form of a bound is named as such. -/
theorem Bound.ofDocument_eq_error {d : Document} {m : Malformed} :
    Bound.ofDocument d = .error m ↔ (∀ a : Bound, a.toDocument ≠ d) ∧ m = .bound d := by
  have hcause : ∀ {m}, Bound.ofDocument d = .error m → m = .bound d := by
    intro m h
    cases d with
    | text s =>
      rw [Bound.ofDocument] at h
      split at h
      · cases h
      · split at h
        · cases h
        · exact (Except.error.inj h).symm
    | _ => cases h <;> rfl
  constructor
  · intro h
    refine ⟨fun a ha => ?_, hcause h⟩
    rw [Bound.ofDocument_eq_ok.2 ha] at h
    cases h
  · intro h
    obtain ⟨hno, hm⟩ := h
    cases h : Bound.ofDocument d with
    | ok a => exact absurd (Bound.ofDocument_eq_ok.1 h) (hno a)
    | error m' => rw [hm, hcause h]

/-- Why a document is no ordered interval: it is no pair, its first or else its second item is no
bound, or the bounds are not in order. -/
inductive Interval.Refused : Document → Malformed → Prop
  | pair {d : Document} : (∀ a b, d ≠ .list [a, b]) → Refused d (.pair d)
  | lower {a b : Document} : (∀ x : Bound, x.toDocument ≠ a) → Refused (.list [a, b]) (.bound a)
  | upper {x : Bound} {b : Document} : (∀ y : Bound, y.toDocument ≠ b) →
      Refused (.list [x.toDocument, b]) (.bound b)
  | inverted {i : Interval} : ¬i.Ordered → Refused i.toDocument (.inverted i.toDocument)

theorem Interval.ofDocument_list (a b : Document) :
    Interval.ofDocument (.list [a, b]) = (do
      let lower ← Bound.ofDocument a
      let upper ← Bound.ofDocument b
      if Bound.lt upper lower then .error (.inverted (.list [a, b])) else return ⟨lower, upper⟩) :=
  rfl

theorem Interval.ofDocument_of_ne {d : Document} (hno : ∀ a b, d ≠ .list [a, b]) :
    Interval.ofDocument d = .error (.pair d) := by
  unfold Interval.ofDocument
  split
  · exact absurd rfl (hno _ _)
  · rfl

theorem Interval.refused_of_ofDocument {d : Document} {m : Malformed}
    (h : Interval.ofDocument d = .error m) : Interval.Refused d m := by
  by_cases hpair : ∃ a b, d = .list [a, b]
  · obtain ⟨a, b, rfl⟩ := hpair
    rw [ofDocument_list] at h
    rcases bind_eq_error.1 h with ha | ⟨lower, ha, h⟩
    · obtain ⟨hno, rfl⟩ := Bound.ofDocument_eq_error.1 ha
      exact .lower hno
    · rw [← Bound.ofDocument_eq_ok.1 ha] at h ⊢
      rcases bind_eq_error.1 h with hb | ⟨upper, hb, h⟩
      · obtain ⟨hno, rfl⟩ := Bound.ofDocument_eq_error.1 hb
        exact .upper hno
      · rw [← Bound.ofDocument_eq_ok.1 hb] at h ⊢
        split at h
        · rename_i hlt
          rw [← Except.error.inj h]
          exact .inverted (i := ⟨lower, upper⟩) fun hordered => Bound.not_lt_of_le hordered hlt
        · cases h
  · have hno : ∀ a b, d ≠ .list [a, b] := fun a b hd => hpair ⟨a, b, hd⟩
    rw [ofDocument_of_ne hno] at h
    rw [← Except.error.inj h]
    exact .pair hno

theorem Interval.Refused.ofDocument {d : Document} {m : Malformed} (h : Interval.Refused d m) :
    Interval.ofDocument d = .error m := by
  have hread : ∀ x : Bound, Bound.ofDocument x.toDocument = .ok x :=
    fun x => Bound.ofDocument_eq_ok.2 rfl
  cases h with
  | pair hno => exact ofDocument_of_ne hno
  | lower hno =>
    rw [ofDocument_list]
    exact bind_eq_error.2 (.inl (Bound.ofDocument_eq_error.2 ⟨hno, rfl⟩))
  | @upper x b hno =>
    have hb : Bound.ofDocument b = .error (.bound b) := Bound.ofDocument_eq_error.2 ⟨hno, rfl⟩
    rw [ofDocument_list]
    exact bind_eq_error.2 (.inr ⟨x, hread x, bind_eq_error.2 (.inl hb)⟩)
  | @inverted i hordered =>
    have hlt : Bound.lt i.upper i.lower = true := Bound.lt_of_not_le hordered
    rw [Interval.toDocument, ofDocument_list, hread, hread]
    exact if_pos hlt

theorem Interval.Refused.problem {d : Document} {m : Malformed} (h : Interval.Refused d m) :
    m.problem.kind = .invalidArgument ∧ m.problem.details = [] := by
  cases h <;> exact ⟨rfl, rfl⟩

/-! ### Values -/

namespace Value

/-- Why a document is no value with ordered intervals: it is neither the mark nor an object with one
member; the name of the member is no kind of value; what it holds is no truth value, or no ordered
interval; or, in a tuple, the first item that is no such value. -/
inductive Refused : Document → Malformed → Prop
  | value {d : Document} : d ≠ .text "uninit" → (∀ kind x, d ≠ .object [(kind, x)]) →
      Refused d (.value d)
  | kind {kind : String} {x : Document} : kind ≠ "bool" → kind ≠ "int" → kind ≠ "uint" →
      (kind = "tuple" → ∀ ds, x ≠ .list ds) → Refused (.object [(kind, x)]) (.valueKind kind)
  | bool {x : Document} : (∀ t : Truth, .text t.text ≠ x) →
      Refused (.object [("bool", x)]) (.truth x)
  | int {x : Document} {m : Malformed} : Interval.Refused x m → Refused (.object [("int", x)]) m
  | uint {x : Document} {m : Malformed} : Interval.Refused x m → Refused (.object [("uint", x)]) m
  | item {vs : List Value} {d : Document} {rest : List Document} {m : Malformed} :
      (∀ v ∈ vs, v.Ordered) → Refused d m →
      Refused (.object [("tuple", .list (vs.map toDocument ++ d :: rest))]) m

theorem readTruth_eq_error {x : Document} {m : Malformed} :
    readTruth x = .error m ↔ (∀ t : Truth, .text t.text ≠ x) ∧ m = .truth x := by
  constructor
  · intro h
    unfold readTruth at h
    split at h
    · rename_i s
      split at h
      · cases h
      · rename_i hnone
        refine ⟨fun t ht => ?_, (Except.error.inj h).symm⟩
        rw [Truth.ofText?_eq_some.2 (Document.text.inj ht)] at hnone
        cases hnone
    · rename_i hno
      exact ⟨fun t ht => hno t.text ht.symm, (Except.error.inj h).symm⟩
  · intro h
    obtain ⟨hno, hm⟩ := h
    rw [hm]
    unfold readTruth
    split
    · rename_i s
      cases ht : Truth.ofText? s with
      | none => rfl
      | some t => exact absurd (congrArg Document.text (Truth.ofText?_eq_some.1 ht)) (hno t)
    · rfl

/-- A value without parts is refused by what its kind asks for. -/
theorem refused_of_readLeaf {kind : String} {x : Document} {m : Malformed}
    (hlist : kind = "tuple" → ∀ ds, x ≠ .list ds) (h : readLeaf kind x = .error m) :
    Refused (.object [(kind, x)]) m := by
  unfold readLeaf at h
  by_cases hbool : kind = "bool"
  · rw [if_pos hbool, readTruth_eq_error] at h
    rw [hbool, h.2]
    exact .bool h.1
  rw [if_neg hbool] at h
  by_cases hint : kind = "int"
  · rw [if_pos hint, map_eq_error] at h
    rw [hint]
    exact .int (Interval.refused_of_ofDocument h)
  rw [if_neg hint] at h
  by_cases huint : kind = "uint"
  · rw [if_pos huint, map_eq_error] at h
    rw [huint]
    exact .uint (Interval.refused_of_ofDocument h)
  rw [if_neg huint] at h
  rw [← Except.error.inj h]
  exact .kind hbool hint huint hlist

/-! ### Items of tuples -/

/-- A list of documents fails at the first one that does. -/
theorem ofDocuments_eq_error {ds : List Document} {m : Malformed} :
    ofDocuments ds = .error m ↔
      ∃ (vs : List Value) (d : Document) (rest : List Document),
        ds = vs.map toDocument ++ d :: rest ∧ (∀ v ∈ vs, v.Ordered) ∧ ofDocument d = .error m := by
  induction ds with
  | nil => simp [ofDocuments]
  | cons d ds ih =>
    rw [ofDocuments, bind_eq_error]
    constructor
    · intro h
      rcases h with hd | ⟨v, hv, h⟩
      · exact ⟨[], d, ds, rfl, List.forall_mem_nil _, hd⟩
      · rcases bind_eq_error.1 h with hds | ⟨vs, -, h⟩
        · obtain ⟨vs, d', rest, rfl, hvs, hd'⟩ := ih.1 hds
          obtain ⟨rfl, hordered⟩ := ofDocument_eq_ok.1 hv
          exact ⟨v :: vs, d', rest, rfl, List.forall_mem_cons.2 ⟨hordered, hvs⟩, hd'⟩
        · cases h
    · intro h
      obtain ⟨vs, d', rest, hds, hvs, hd'⟩ := h
      cases vs with
      | nil =>
        obtain ⟨rfl, rfl⟩ := List.cons.inj hds
        exact .inl hd'
      | cons v vs =>
        obtain ⟨rfl, rfl⟩ := List.cons.inj hds
        have hv := List.forall_mem_cons.1 hvs
        have hrest := ih.2 ⟨vs, d', rest, rfl, hv.2, hd'⟩
        exact .inr ⟨v, ofDocument_toDocument hv.1, bind_eq_error.2 (.inl hrest)⟩

/-! ### The reader -/

theorem ofDocument_of_leaf {kind : String} {x : Document}
    (h : kind = "tuple" → ∀ ds, x ≠ .list ds) :
    ofDocument (.object [(kind, x)]) = readLeaf kind x := by
  cases x with
  | list ds =>
    have hkind : kind ≠ "tuple" := fun hkind => h hkind ds rfl
    exact if_neg hkind
  | _ => rfl

theorem ofDocument_of_ne {d : Document} (hmark : d ≠ .text "uninit")
    (hobject : ∀ kind x, d ≠ .object [(kind, x)]) : ofDocument d = .error (.value d) := by
  unfold ofDocument
  split
  · rename_i s
    have hs : s ≠ "uninit" := fun hs => hmark (congrArg Document.text hs)
    exact if_neg hs
  · exact absurd rfl (hobject _ _)
  · exact absurd rfl (hobject _ _)
  · rfl

/-- What the reader fails on is refused.  It descends into the items of tuples only. -/
theorem refused_of_ofDocument {d : Document} {m : Malformed} (h : ofDocument d = .error m) :
    Refused d m := by
  by_cases htuple : ∃ ds, d = .object [("tuple", .list ds)]
  · obtain ⟨ds, hd⟩ := htuple
    have hds : ofDocuments ds = .error m := by
      rw [hd] at h
      exact map_eq_error.1 h
    obtain ⟨vs, d', rest, hsplit, hvs, hd'⟩ := ofDocuments_eq_error.1 hds
    have hmem : d' ∈ ds := by
      rw [hsplit]
      exact List.mem_append_right _ List.mem_cons_self
    have hsize : sizeOf d' < sizeOf d := by
      have hlt := List.sizeOf_lt_of_mem hmem
      rw [hd]
      simp only [Document.object.sizeOf_spec, List.cons.sizeOf_spec, Prod.mk.sizeOf_spec,
        Document.list.sizeOf_spec]
      omega
    rw [hd, hsplit]
    exact .item hvs (refused_of_ofDocument hd')
  by_cases hobject : ∃ kind x, d = .object [(kind, x)]
  · obtain ⟨kind, x, hd⟩ := hobject
    have hlist : kind = "tuple" → ∀ ds, x ≠ .list ds := by
      intro hkind ds hx
      exact htuple ⟨ds, by rw [hd, hkind, hx]⟩
    rw [hd, ofDocument_of_leaf hlist] at h
    rw [hd]
    exact refused_of_readLeaf hlist h
  · have hno : ∀ kind x, d ≠ .object [(kind, x)] := fun kind x hd => hobject ⟨kind, x, hd⟩
    have hmark : d ≠ .text "uninit" := by
      intro hd
      rw [hd] at h
      cases h
    rw [ofDocument_of_ne hmark hno] at h
    rw [← Except.error.inj h]
    exact .value hmark hno
termination_by sizeOf d

/-- The reader fails on what is refused, and for the reason given. -/
theorem Refused.ofDocument {d : Document} {m : Malformed} (h : Refused d m) :
    Value.ofDocument d = .error m := by
  induction h with
  | value hmark hobject => exact ofDocument_of_ne hmark hobject
  | kind hbool hint huint hlist =>
    rw [ofDocument_of_leaf hlist, readLeaf, if_neg hbool, if_neg hint, if_neg huint]
  | bool hno =>
    rw [ofDocument_of_leaf (fun hkind => absurd hkind (by decide))]
    exact readTruth_eq_error.2 ⟨hno, rfl⟩
  | int hx =>
    rw [ofDocument_of_leaf (fun hkind => absurd hkind (by decide))]
    exact map_eq_error.2 hx.ofDocument
  | uint hx =>
    rw [ofDocument_of_leaf (fun hkind => absurd hkind (by decide))]
    exact map_eq_error.2 hx.ofDocument
  | @item vs d rest m hvs hd ih =>
    exact map_eq_error.2 (ofDocuments_eq_error.2 ⟨vs, d, rest, rfl, hvs, ih⟩)

/-- **The reader fails exactly where a document is refused.** -/
theorem ofDocument_eq_error {d : Document} {m : Malformed} :
    ofDocument d = .error m ↔ Refused d m :=
  ⟨refused_of_ofDocument, Refused.ofDocument⟩

/-- A refusal is reported as an invalid argument and has no details. -/
theorem Refused.problem {d : Document} {m : Malformed} (h : Refused d m) :
    m.problem.kind = .invalidArgument ∧ m.problem.details = [] := by
  induction h with
  | value _ _ => exact ⟨rfl, rfl⟩
  | kind _ _ _ _ => exact ⟨rfl, rfl⟩
  | bool _ => exact ⟨rfl, rfl⟩
  | int hx => exact hx.problem
  | uint hx => exact hx.problem
  | item _ _ ih => exact ih

/-- **Reading and writing of values are inverse to each other.**

* A document is read as a value exactly if it is the form of the value and the intervals of the
  value are ordered, at any depth.
* Every other document is refused, for the first of the reasons in `Refused`, and always as an
  invalid argument without details.
* So what is written is read as it was, what is read is written as it was, and two documents that
  are read as one value are the same. -/
theorem ofDocument_inverts_toDocument (d : Document) :
    (∀ v, ofDocument d = .ok v ↔ v.toDocument = d ∧ v.Ordered) ∧
    (∀ m, ofDocument d = .error m ↔ Refused d m) ∧
    ((∀ v : Value, v.toDocument = d → ¬v.Ordered) → ∃ m, ofDocument d = .error m ∧
      m.problem.kind = .invalidArgument ∧ m.problem.details = []) ∧
    (∀ v : Value, v.Ordered → ofDocument v.toDocument = .ok v) ∧
    (∀ v, ofDocument d = .ok v → v.toDocument = d) ∧
    ∀ d' v, ofDocument d = .ok v → ofDocument d' = .ok v → d = d' := by
  refine ⟨fun v => ofDocument_eq_ok, fun m => ofDocument_eq_error, ?_,
    fun v => ofDocument_toDocument, fun v h => (ofDocument_eq_ok.1 h).1, ?_⟩
  · intro hno
    cases h : ofDocument d with
    | ok v =>
      obtain ⟨hform, hordered⟩ := ofDocument_eq_ok.1 h
      exact absurd hordered (hno v hform)
    | error m => exact ⟨m, rfl, (refused_of_ofDocument h).problem⟩
  · intro d' v h h'
    rw [← (ofDocument_eq_ok.1 h).1, ← (ofDocument_eq_ok.1 h').1]

/-- A tuple of a slot without a value, an interval with its bounds in the wrong order, and one with
a truth value for a bound: it is the second item that is named. -/
theorem ofDocument_inverts_toDocument_swapped :
    let swapped : Document := .list [.int 5, .int 1]
    let d : Document := .object [("tuple", .list [.text "uninit", .object [("int", swapped)],
      .object [("uint", .list [.bool true, .int 1])]])]
    Refused d (.inverted swapped) ∧
      (∀ v : Value, v.toDocument = d → ¬v.Ordered) ∧
      (Malformed.inverted swapped).problem.kind = .invalidArgument := by
  intro swapped d
  obtain ⟨hok, herror, hinvalid, -⟩ := ofDocument_inverts_toDocument d
  have hfail : ofDocument d = .error (.inverted swapped) := rfl
  have hno : ∀ v : Value, v.toDocument = d → ¬v.Ordered := by
    intro v hv hordered
    rw [(hok v).2 ⟨hv, hordered⟩] at hfail
    cases hfail
  obtain ⟨m, hm, hkind, -⟩ := hinvalid hno
  rw [hfail, Except.error.injEq] at hm
  exact ⟨(herror _).1 hfail, hno, hm ▸ hkind⟩

end Value

end MirRange
