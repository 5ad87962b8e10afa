import MirRange.Proofs.Exactness

/-!
# The order is inclusion of meanings

An abstract value stands for a set of contents: an interval for the integers between its bounds, a
tuple for the product of what its items stand for.  The order compares bounds and stops at the first
item that is not in order, and is refused for values of different shapes.  Nevertheless, on values
that stand for something at every leaf, it says neither more nor less than that one set is included
in the other.

* `Content`, `Value.meaning`: contents, tagged by the variant that they are of, and the contents
  that a value stands for.
* `Interval.leq_iff_forall`, `Truth.leq_iff_forall`: the order at the leaves.
* `Value.meanings_subset_iff`: a product of non-empty sets is included in another one exactly if its
  factors are.
* `Value.order_is_inclusion`: the order is inclusion, and joins are best.
-/

namespace MirRange

/-! ### Leaves -/

/-- Intervals that hold some integer are in order exactly if their integers are included. -/
theorem Interval.leq_iff_forall {i j : Interval} (hi : i.Nonempty) :
    i.leq j = true ↔ ∀ n, i.contains n = true → j.contains n = true := by
  rw [leq_iff]
  constructor
  · intro h n hn
    rw [contains_iff] at hn ⊢
    exact ⟨Bound.le_trans h.1 hn.1, Bound.le_trans hn.2 h.2⟩
  · intro h
    -- a bound of `i` beyond one of `j` leaves room for an integer of `i` that is not in `j`
    constructor
    · by_contra hlower
      obtain ⟨k, hk, hkj⟩ := Bound.exists_fin_succ_between (Bound.lt_of_not_le hlower)
      obtain ⟨m, hm, hmk⟩ := hi.exists_contains_le hk
      have hkm : Bound.le (.fin (k + 1)) (.fin m) = true :=
        Bound.le_trans hkj (contains_iff.1 (h m hm)).1
      rw [Bound.fin_le_fin] at hkm
      omega
    · by_contra hupper
      obtain ⟨k, hjk, hk⟩ := Bound.exists_fin_succ_between (Bound.lt_of_not_le hupper)
      obtain ⟨m, hm, hkm⟩ := hi.exists_le_contains hk
      have hmk : Bound.le (.fin m) (.fin k) = true :=
        Bound.le_trans (contains_iff.1 (h m hm)).2 hjk
      rw [Bound.fin_le_fin] at hmk
      omega

theorem Truth.leq_iff_forall {s t : Truth} :
    s.leq t = Bool.true ↔ ∀ x, s.admits x = Bool.true → t.admits x = Bool.true := by
  cases s <;> cases t <;> decide

/-! ### Contents -/

/-- What a local may contain, tagged by the variant of values that stands for it. -/
inductive Content where
  | bool (x : Bool)
  | int (n : Int)
  | uint (n : Int)
  | tuple (items : List Content)
  | uninit

namespace Value

mutual

/-- The contents that a value stands for. -/
def meaning : Value → Set Content
  | .bool t => {c | ∃ x, c = .bool x ∧ t.admits x = true}
  | .int i => {c | ∃ n, c = .int n ∧ i.contains n = true}
  | .uint i => {c | ∃ n, c = .uint n ∧ i.contains n = true}
  | .tuple items => {c | ∃ cs, c = .tuple cs ∧ cs ∈ meanings items}
  | .uninit => {c | c = .uninit}

/-- The lists of contents that a list of values stands for: the product of what they stand for. -/
def meanings : List Value → Set (List Content)
  | [] => {cs | cs = []}
  | v :: vs => {cs | ∃ d ds, cs = d :: ds ∧ d ∈ meaning v ∧ ds ∈ meanings vs}

end

section

variable {v : Value}

theorem bool_mem_meaning {x : Bool} :
    Content.bool x ∈ v.meaning ↔ ∃ t, v = .bool t ∧ t.admits x = true := by
  cases v with
  | bool t => cases x <;> simp [meaning]
  | _ => simp [meaning]

theorem int_mem_meaning {n : Int} :
    Content.int n ∈ v.meaning ↔ ∃ i, v = .int i ∧ i.contains n = true := by
  cases v <;> simp [meaning]

theorem uint_mem_meaning {n : Int} :
    Content.uint n ∈ v.meaning ↔ ∃ i, v = .uint i ∧ i.contains n = true := by
  cases v <;> simp [meaning]

theorem tuple_mem_meaning {cs : List Content} :
    Content.tuple cs ∈ v.meaning ↔ ∃ items, v = .tuple items ∧ cs ∈ meanings items := by
  cases v <;> simp [meaning]

theorem uninit_mem_meaning : Content.uninit ∈ v.meaning ↔ v = .uninit := by
  cases v <;> simp [meaning]

end

/-! ### Products -/

theorem mem_meanings_nil {cs : List Content} : cs ∈ meanings [] ↔ cs = [] := by
  rw [meanings]
  rfl

theorem cons_mem_meanings {v : Value} {vs : List Value} {c : Content} {cs : List Content} :
    c :: cs ∈ meanings (v :: vs) ↔ c ∈ v.meaning ∧ cs ∈ meanings vs := by
  simp [meanings]

theorem exists_cons_of_mem_meanings {v : Value} {vs : List Value} {cs : List Content}
    (h : cs ∈ meanings (v :: vs)) :
    ∃ d ds, cs = d :: ds ∧ d ∈ v.meaning ∧ ds ∈ meanings vs := by
  rw [meanings] at h
  exact h

theorem meanings_nonempty {vs : List Value} (h : ∀ v ∈ vs, v.meaning.Nonempty) :
    (meanings vs).Nonempty := by
  induction vs with
  | nil => exact ⟨[], mem_meanings_nil.2 rfl⟩
  | cons v vs ih =>
    obtain ⟨c, hc⟩ := h v List.mem_cons_self
    obtain ⟨cs, hcs⟩ := ih fun w hw => h w (List.mem_cons_of_mem v hw)
    exact ⟨c :: cs, cons_mem_meanings.2 ⟨hc, hcs⟩⟩

theorem meanings_subset_of_forall₂ {as bs : List Value}
    (h : List.Forall₂ (fun a b => a.meaning ⊆ b.meaning) as bs) : meanings as ⊆ meanings bs := by
  induction h with
  | nil => exact Set.Subset.rfl
  | cons hab _ ih =>
    intro cs hcs
    obtain ⟨d, ds, rfl, hd, hds⟩ := exists_cons_of_mem_meanings hcs
    exact cons_mem_meanings.2 ⟨hab hd, ih hds⟩

/-- **A product of non-empty sets is included in another one exactly if its factors are.**  A
content of one factor is completed by contents of the others. -/
theorem meanings_subset_iff {as bs : List Value} (has : ∀ a ∈ as, a.meaning.Nonempty) :
    meanings as ⊆ meanings bs ↔ List.Forall₂ (fun a b => a.meaning ⊆ b.meaning) as bs := by
  refine ⟨?_, meanings_subset_of_forall₂⟩
  intro h
  induction as generalizing bs with
  | nil =>
    cases bs with
    | nil => exact .nil
    | cons b bs =>
      obtain ⟨d, ds, hnil, -⟩ := exists_cons_of_mem_meanings (h (mem_meanings_nil.2 rfl))
      cases hnil
  | cons a as ih =>
    have hrest : ∀ v ∈ as, v.meaning.Nonempty := fun v hv => has v (List.mem_cons_of_mem a hv)
    obtain ⟨c, hc⟩ := has a List.mem_cons_self
    obtain ⟨cs, hcs⟩ := meanings_nonempty hrest
    have hmem : ∀ d ds, d ∈ a.meaning → ds ∈ meanings as → d :: ds ∈ meanings bs :=
      fun d ds hd hds => h (cons_mem_meanings.2 ⟨hd, hds⟩)
    cases bs with
    | nil => cases mem_meanings_nil.1 (hmem c cs hc hcs)
    | cons b bs =>
      refine .cons (fun d hd => ?_) (ih hrest fun ds hds => ?_)
      · exact (cons_mem_meanings.1 (hmem d cs hd hcs)).1
      · exact (cons_mem_meanings.1 (hmem c ds hc hds)).2

/-! ### The order -/

/-- A value stands for some content if its leaves do. -/
theorem Nonempty.meaning_nonempty {v : Value} (h : v.Nonempty) : v.meaning.Nonempty := by
  induction v using nestedInduction with
  | bool t =>
    have ht := h.bool
    have hsome : ∃ x, t.admits x = true := by
      revert ht
      cases t <;> decide
    obtain ⟨x, hx⟩ := hsome
    exact ⟨.bool x, bool_mem_meaning.2 ⟨t, rfl, hx⟩⟩
  | int i =>
    obtain ⟨n, hn⟩ := h.int
    exact ⟨.int n, int_mem_meaning.2 ⟨i, rfl, hn⟩⟩
  | uint i =>
    obtain ⟨n, hn⟩ := h.uint
    exact ⟨.uint n, uint_mem_meaning.2 ⟨i, rfl, hn⟩⟩
  | tuple items ih =>
    obtain ⟨cs, hcs⟩ := meanings_nonempty fun v hv => ih v hv (h.item hv)
    exact ⟨.tuple cs, tuple_mem_meaning.2 ⟨items, rfl, hcs⟩⟩
  | uninit => exact ⟨.uninit, uninit_mem_meaning.2 rfl⟩

/-- Values in order have meanings in order, empty or not. -/
theorem meaning_subset_of_le {a b : Value} (h : a ≤ b) : a.meaning ⊆ b.meaning := by
  refine orderInduction (P := fun a b => a.meaning ⊆ b.meaning) ?_ ?_ ?_ ?_ Set.Subset.rfl h
  · intro s t hst c hc
    obtain ⟨x, rfl, hx⟩ := hc
    exact bool_mem_meaning.2 ⟨t, rfl, Truth.leq_iff_forall.1 hst x hx⟩
  · intro i j hij c hc
    obtain ⟨n, rfl, hn⟩ := hc
    exact int_mem_meaning.2 ⟨j, rfl, (Interval.leq_iff_forall ⟨n, hn⟩).1 hij n hn⟩
  · intro i j hij c hc
    obtain ⟨n, rfl, hn⟩ := hc
    exact uint_mem_meaning.2 ⟨j, rfl, (Interval.leq_iff_forall ⟨n, hn⟩).1 hij n hn⟩
  · intro as bs hall c hc
    obtain ⟨cs, rfl, hcs⟩ := hc
    exact tuple_mem_meaning.2 ⟨bs, rfl, meanings_subset_of_forall₂ hall hcs⟩

/-- A value that stands for something lies below all values that stand for as much.  Some content
of it tells the variant of the other one. -/
theorem le_of_meaning_subset {a b : Value} (ha : a.Nonempty) (h : a.meaning ⊆ b.meaning) :
    a ≤ b := by
  obtain ⟨c, hc⟩ := ha.meaning_nonempty
  induction a using nestedInduction generalizing b c with
  | bool s =>
    obtain ⟨x, rfl, -⟩ := id hc
    obtain ⟨t, rfl, -⟩ := bool_mem_meaning.1 (h hc)
    refine bool_leq_iff.2 ⟨t, rfl, Truth.leq_iff_forall.2 fun y hy => ?_⟩
    simpa [bool_mem_meaning] using h (bool_mem_meaning.2 ⟨s, rfl, hy⟩)
  | int i =>
    obtain ⟨n, rfl, -⟩ := id hc
    obtain ⟨j, rfl, -⟩ := int_mem_meaning.1 (h hc)
    refine int_leq_iff.2 ⟨j, rfl, (Interval.leq_iff_forall ha.int).2 fun m hm => ?_⟩
    simpa [int_mem_meaning] using h (int_mem_meaning.2 ⟨i, rfl, hm⟩)
  | uint i =>
    obtain ⟨n, rfl, -⟩ := id hc
    obtain ⟨j, rfl, -⟩ := uint_mem_meaning.1 (h hc)
    refine uint_leq_iff.2 ⟨j, rfl, (Interval.leq_iff_forall ha.uint).2 fun m hm => ?_⟩
    simpa [uint_mem_meaning] using h (uint_mem_meaning.2 ⟨i, rfl, hm⟩)
  | tuple as ih =>
    obtain ⟨cs, rfl, -⟩ := id hc
    obtain ⟨bs, rfl, -⟩ := tuple_mem_meaning.1 (h hc)
    have hsubset : meanings as ⊆ meanings bs := by
      intro ds hds
      simpa [tuple_mem_meaning] using h (tuple_mem_meaning.2 ⟨as, rfl, hds⟩)
    have hitems : ∀ a ∈ as, a.meaning.Nonempty := fun a hmem => (ha.item hmem).meaning_nonempty
    refine tuple_le_tuple_iff.2 (forall₂_imp_mem ((meanings_subset_iff hitems).1 hsubset) ?_)
    intro a hmem b hab
    obtain ⟨d, hd⟩ := hitems a hmem
    exact ih a hmem (ha.item hmem) hab d hd
  | uninit =>
    rw [uninit_mem_meaning.1 (h (uninit_mem_meaning.2 rfl))]

theorem le_iff_meaning_subset {a b : Value} (ha : a.Nonempty) :
    a ≤ b ↔ a.meaning ⊆ b.meaning :=
  ⟨meaning_subset_of_le, le_of_meaning_subset ha⟩

/-- **The order is inclusion of meanings, and joins are best abstractions.**  Let every interval of
a value hold some integer and no truth value of it be impossible.

* The value is found below another exactly if its contents are among those of the other.
* With a second such value of the same shape it has a join, which stands for the contents of both,
  and lies below every value that does. -/
theorem order_is_inclusion (a b : Value) (ha : a.Nonempty) :
    (a.leq b = .ok true ↔ a.meaning ⊆ b.meaning) ∧
    (b.Nonempty → a.SameShape b → ∃ j, a.join b = .ok j ∧ a.meaning ∪ b.meaning ⊆ j.meaning ∧
      ∀ c : Value, a.meaning ⊆ c.meaning → b.meaning ⊆ c.meaning →
        j.leq c = .ok true ∧ j.meaning ⊆ c.meaning) := by
  refine ⟨le_iff_meaning_subset ha, ?_⟩
  intro hb hshape
  obtain ⟨j, hj⟩ : ∃ j, a.join b = .ok j := exists_combine_iff.2 hshape
  have hupper : a ≤ j ∧ b ≤ j := (join_le_iff hj).1 (le_refl j)
  refine ⟨j, hj, Set.union_subset ?_ ?_, ?_⟩
  · exact meaning_subset_of_le hupper.1
  · exact meaning_subset_of_le hupper.2
  · intro c hac hbc
    have hle : j ≤ c :=
      (join_le_iff hj).2 ⟨le_of_meaning_subset ha hac, le_of_meaning_subset hb hbc⟩
    exact ⟨hle, meaning_subset_of_le hle⟩

/-- Two values of one shape that are not in order, so there is a content of the first that is none
of the second; the least value that stands for the contents of both has no upper bound. -/
theorem order_is_inclusion_nestedPair :
    (nestedPair .true (.between 0 3)).Nonempty ∧
      (nestedPair .false ⟨.fin 2, .posInf⟩).Nonempty ∧
      ¬(nestedPair .true (.between 0 3)).meaning ⊆
        (nestedPair .false ⟨.fin 2, .posInf⟩).meaning ∧
      (nestedPair .true (.between 0 3)).meaning ∪ (nestedPair .false ⟨.fin 2, .posInf⟩).meaning ⊆
        (nestedPair .top ⟨.fin 0, .posInf⟩).meaning ∧
      ∀ c : Value, (nestedPair .true (.between 0 3)).meaning ⊆ c.meaning →
        (nestedPair .false ⟨.fin 2, .posInf⟩).meaning ⊆ c.meaning →
        (nestedPair .top ⟨.fin 0, .posInf⟩).leq c = .ok true := by
  have hnonempty : ∀ t i, t ≠ .bot → i.contains 2 = true → (nestedPair t i).Nonempty := by
    intro t i ht hi
    constructor
    · intro j hj
      rw [List.mem_singleton.1 hj]
      exact ⟨2, hi⟩
    · intro s hs
      rw [List.mem_singleton.1 hs]
      exact ht
  have ha := hnonempty .true (.between 0 3) nofun rfl
  have hb := hnonempty .false ⟨.fin 2, .posInf⟩ nofun rfl
  obtain ⟨horder, hbest⟩ := order_is_inclusion (nestedPair .true (.between 0 3))
    (nestedPair .false ⟨.fin 2, .posInf⟩) ha
  obtain ⟨j, hj, hunion, hleast⟩ := hbest hb (sameShape_iff_top_eq.2 rfl)
  cases hj
  refine ⟨ha, hb, fun h => ?_, hunion, fun c hac hbc => (hleast c hac hbc).1⟩
  cases horder.2 h

end Value

end MirRange
