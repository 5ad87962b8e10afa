import MirRange.Proofs.Readback
import MirRange.Proofs.RoundTrip

/-!
# Arguments and the locals that hold them

The types of the arguments are those of the declarations between the return place and an end that
the argument count gives, and the locals that hold the arguments are counted from 1 up to the
argument count.  The two go together as long as the count is not negative, however large it is.  A
negative count gives an end that is counted from the back, so that arguments are taken, but no local
to hold them.

* `Body.DeclaresArg`: the declarations of arguments; `Body.mem_argTypes`: the argument types are
  their types.
* `Body.bindings_of_seed`: what a run starts from are the argument locals paired with the arguments.
* `State.Seeds`: a state that binds the locals from 1 on to given arguments, and no others.
* `Body.arguments_seeded_iff`: when a run starts from such a state.
-/

namespace MirRange

/-! ### Argument types -/

namespace Body

/-- The declaration at a position is one of an argument: it comes after the return place and before
the end that the argument count gives.  An end below zero counts from the back. -/
def DeclaresArg (b : Body) (i : Nat) : Prop :=
  1 ≤ i ∧ (i : Int) <
    if 1 + b.argCount < 0 then 1 + b.argCount + b.locals.length else 1 + b.argCount

theorem lt_clampEnd_iff {length i : Nat} {stop : Int} :
    i < clampEnd length stop ↔
      i < length ∧ (i : Int) < if stop < 0 then stop + length else stop := by
  unfold clampEnd
  split <;> omega

theorem getElem?_argTypes (b : Body) (i : Nat) :
    b.argTypes[i]? = if i + 1 < clampEnd b.locals.length (1 + b.argCount) then
      (b.locals[i + 1]?).map LocalDecl.ty else none := by
  rw [argTypes, List.getElem?_map, List.getElem?_drop, List.getElem?_take, Nat.add_comm 1 i]
  split <;> rfl

/-- **The argument types are the types of the declarations of arguments.** -/
theorem mem_argTypes {b : Body} {ty : Ty} :
    ty ∈ b.argTypes ↔ ∃ i decl, b.DeclaresArg i ∧ b.locals[i]? = some decl ∧ decl.ty = ty := by
  simp only [List.mem_iff_getElem?, getElem?_argTypes]
  constructor
  · intro h
    obtain ⟨i, hi⟩ := h
    split at hi
    · rename_i hlt
      obtain ⟨decl, hdecl, hty⟩ := Option.map_eq_some_iff.1 hi
      have hend := (lt_clampEnd_iff.1 hlt).2
      exact ⟨i + 1, decl, ⟨by omega, hend⟩, hdecl, hty⟩
    · cases hi
  · intro h
    obtain ⟨i, decl, ⟨hpos, hend⟩, hdecl, hty⟩ := h
    obtain ⟨hlt, -⟩ := List.getElem?_eq_some_iff.1 hdecl
    obtain ⟨j, rfl⟩ : ∃ j, i = j + 1 := ⟨i - 1, by omega⟩
    refine ⟨j, ?_⟩
    rw [if_pos (lt_clampEnd_iff.2 ⟨hlt, hend⟩), hdecl, Option.map_some, hty]

/-- With a count that is not negative there are at most as many argument types as it says; there are
fewer where declarations are missing. -/
theorem length_argTypes_le {b : Body} (h : 0 ≤ b.argCount) :
    b.argTypes.length ≤ b.argCount.toNat := by
  have hstop : clampEnd b.locals.length (1 + b.argCount) ≤ 1 + b.argCount.toNat := by
    unfold clampEnd
    split <;> omega
  rw [argTypes, List.length_map, List.length_drop, List.length_take]
  omega

end Body

/-! ### Bindings -/

namespace State

theorem insert_of_not_mem {l : List (Local × Value)} {n : Local} (h : n ∉ l.map Prod.fst)
    (v : Value) : insert l n v = l ++ [(n, v)] := by
  induction l with
  | nil => rfl
  | cons b rest ih =>
    obtain ⟨m, old⟩ := b
    rw [List.map_cons, List.mem_cons, not_or] at h
    rw [insert, if_neg (Ne.symm h.1), ih h.2, List.cons_append]

/-- **Binding new locals one by one adds them in order**, each with the value of its position. -/
theorem bindings_bindAll {s : State} {ns : List Local} (hns : ns.Nodup)
    (hnew : ∀ n ∈ ns, n ∉ s.bindings.map Prod.fst) (vs : List Value) :
    (s.bindAll ns vs).bindings = s.bindings ++ ns.zip vs := by
  induction ns generalizing s vs with
  | nil => simp [bindAll]
  | cons n ns ih =>
    cases vs with
    | nil => simp [bindAll]
    | cons v vs =>
      obtain ⟨hn, hns⟩ := List.nodup_cons.1 hns
      have hset : (s.set n v).bindings = s.bindings ++ [(n, v)] :=
        insert_of_not_mem (hnew n List.mem_cons_self) v
      have hrest : ∀ k ∈ ns, k ∉ (s.set n v).bindings.map Prod.fst := by
        intro k hk hmem
        rcases mem_keys_insert hmem with rfl | hold
        · exact hn hk
        · exact hnew k (List.mem_cons_of_mem _ hk) hold
      rw [bindAll, ih hns hrest, hset, List.append_assoc, List.zip_cons_cons]
      rfl

/-- A state binds the locals from 1 on, as many as there are arguments, and no others, each to the
argument of its number. -/
structure Seeds (s : State) (args : List Value) : Prop where
  length_eq : s.bindings.length = args.length
  get?_iff : ∀ (n : Local) (v : Value),
    s.get? n = some v ↔ ∃ i : Nat, n = (i : Int) + 1 ∧ args[i]? = some v

end State

namespace Body

variable {b : Body} {args : List Value} {s : State}

theorem argLocals_nodup (b : Body) : b.argLocals.Nodup := by
  refine List.Pairwise.map (fun i : Nat => (i : Int) + 1) ?_ List.nodup_range
  intro i j hij
  show (i : Int) + 1 ≠ (j : Int) + 1
  omega

theorem length_argLocals (b : Body) : b.argLocals.length = b.argCount.toNat := by
  rw [argLocals, List.length_map, List.length_range]

/-- **A run starts from the argument locals paired with the arguments**, as far as both reach. -/
theorem bindings_of_seed (h : b.seed args = .ok s) : s.bindings = b.argLocals.zip args := by
  obtain ⟨-, -, rfl⟩ := seed_eq_ok.1 h
  exact State.bindings_bindAll b.argLocals_nodup (fun _ _ => List.not_mem_nil) args

theorem length_of_seed (h : b.seed args = .ok s) : args.length = b.argTypes.length := by
  obtain ⟨-, hfits, -⟩ := seed_eq_ok.1 h
  exact hfits.length_eq

/-- If there are enough argument locals, every argument is held by the one of its number. -/
theorem get?_of_seed (h : b.seed args = .ok s) (hle : args.length ≤ b.argCount.toNat) {i : Nat}
    {v : Value} (hi : args[i]? = some v) : s.get? ((i : Int) + 1) = some v := by
  obtain ⟨hlt, -⟩ := List.getElem?_eq_some_iff.1 hi
  have hlocal : b.argLocals[i]? = some ((i : Int) + 1) := by
    rw [argLocals, List.getElem?_map, List.getElem?_range (by omega)]
    rfl
  have hmem : ((i : Int) + 1, v) ∈ b.argLocals.zip args :=
    List.mem_iff_getElem?.2 ⟨i, List.getElem?_zip_eq_some.2 ⟨hlocal, hi⟩⟩
  rw [← bindings_of_seed h] at hmem
  exact (distinct_of_seed h).get?_of_mem hmem

theorem seeds_of_length_le (h : b.seed args = .ok s) (hle : args.length ≤ b.argCount.toNat) :
    s.Seeds args := by
  constructor
  · rw [bindings_of_seed h, List.length_zip, length_argLocals]
    omega
  · intro n v
    constructor
    · intro hn
      obtain ⟨i, hi, hv, -⟩ := get?_seed h hn
      exact ⟨i, hi, hv⟩
    · intro hn
      obtain ⟨i, rfl, hv⟩ := hn
      exact get?_of_seed h hle hv

/-- **When every accepted argument is held by a local.**  Let a body accept some arguments, and look
at the state before its first block.  That it binds exactly the locals from 1 on, each to the
argument of its number, that without blocks the body returns this state, and that as many locals are
bound as its summary has arguments, holds exactly if the argument count is not negative or there are
no arguments.  With a negative count nothing is bound, whatever arguments were accepted. -/
theorem arguments_seeded_iff (h : b.seed args = .ok s) :
    ((s.Seeds args ∧ { b with blocks := [] }.interpret args = .ok ⟨s, [], []⟩ ∧
        ∀ summary, b.summary = .ok summary → summary.arguments.length = s.bindings.length) ↔
      0 ≤ b.argCount ∨ args = []) ∧
    (b.argCount < 0 → s = .empty) := by
  have hbindings := bindings_of_seed h
  have hlength := length_of_seed h
  refine ⟨⟨?_, ?_⟩, ?_⟩
  · intro hall
    have hseeds := hall.1.length_eq
    rw [hbindings, List.length_zip, length_argLocals] at hseeds
    by_cases hneg : 0 ≤ b.argCount
    · exact .inl hneg
    · exact .inr (List.length_eq_zero_iff.1 (by omega))
  · intro hcond
    have hle : args.length ≤ b.argCount.toNat := by
      rcases hcond with hcount | rfl
      · have htypes := length_argTypes_le hcount
        omega
      · exact Nat.zero_le _
    have hseeds := seeds_of_length_le h hle
    refine ⟨hseeds, interpret_eq_ok.2 ⟨s, h, rfl⟩, ?_⟩
    intro summary hsummary
    have htops := (Value.ofTys_eq_ok.1 (summary_arguments hsummary)).length_eq
    have hbound := hseeds.length_eq
    omega
  · intro hneg
    obtain ⟨bindings⟩ := s
    have hnone : b.argLocals = [] := by
      rw [← List.length_eq_zero_iff, length_argLocals]
      omega
    have hnil : bindings = [] := by
      rw [show bindings = b.argLocals.zip args from hbindings, hnone, List.zip_nil_left]
    rw [hnil]
    rfl

/-- Three booleans and a count of -2: the end of the arguments is one declaration before the
last. -/
def countedBack : Body where
  blocks := []
  locals := [⟨.bool, false⟩, ⟨.bool, false⟩, ⟨.bool, false⟩]
  argCount := -2

/-- Two arguments are taken although the count says five, and they are held by locals 1 and 2. -/
theorem arguments_seeded_iff_short :
    ∃ s, { countedBack with argCount := 5 }.seed [.bool .true, .bool .bot] = .ok s ∧
      s.Seeds [.bool .true, .bool .bot] := by
  have hseed : { countedBack with argCount := 5 }.seed [.bool .true, .bool .bot] =
      .ok ⟨[(1, .bool .true), (2, .bool .bot)]⟩ := rfl
  exact ⟨_, hseed, ((arguments_seeded_iff hseed).1.2 (.inl (by decide))).1⟩

/-- A body that is read from a document accepts an argument and does not bind it, and its summary
has one argument while no local is bound. -/
theorem countedBack_drops_argument :
    ofDocument countedBack.toDocument = .ok countedBack ∧
      countedBack.interpret [.bool .true] = .ok ⟨.empty, [], []⟩ ∧
      ¬State.Seeds .empty [.bool .true] ∧
      ∃ summary, countedBack.summary = .ok summary ∧
        summary.arguments.length ≠ State.empty.bindings.length := by
  refine ⟨lossless.read_write (by decide), rfl, ?_, _, rfl, by decide⟩
  intro hseeds
  have hlength := hseeds.length_eq
  cases hlength

end Body

end MirRange
