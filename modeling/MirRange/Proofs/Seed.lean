import MirRange.Proofs.Shape
import MirRange.Interpretation

/-!
# The state that a run starts from

A body accepts the arguments that fit its argument types one by one, and binds them to the locals
after the return place.

* `Body.seed_eq_ok`: which arguments are accepted, and what state they give.
* `Body.get?_seed`: a local bound at the start is declared, and holds the argument of its number,
  which fits its type.
-/

namespace MirRange

/-- Binding locals one by one binds no others, and each to a value of its position. -/
theorem State.get?_bindAll {s : State} {ns : List Local} {vs : List Value} {n : Local} {v : Value}
    (h : (s.bindAll ns vs).get? n = some v) :
    (∃ i : Nat, ns[i]? = some n ∧ vs[i]? = some v) ∨ s.get? n = some v := by
  induction ns generalizing s vs with
  | nil => exact .inr h
  | cons m ns ih =>
    cases vs with
    | nil => exact .inr h
    | cons w vs =>
      rcases ih h with ⟨i, hn, hv⟩ | hset
      · exact .inl ⟨i + 1, by simpa using hn, by simpa using hv⟩
      · by_cases hmn : m = n
        · subst hmn
          rw [State.get?_set_self] at hset
          exact .inl ⟨0, rfl, hset⟩
        · rw [State.get?_set_of_ne s w hmn] at hset
          exact .inr hset

namespace Body

theorem localTy_eq_ok {b : Body} {n : Local} {ty : Ty} :
    b.localTy n = .ok ty ↔ ∃ decl, at? b.locals n = some decl ∧ decl.ty = ty := by
  unfold localTy at?
  split
  · cases b.locals[n.toNat]? <;> simp
  · simp

/-- The type of an argument is that of the local that holds it. -/
theorem localTy_of_argTypes {b : Body} {i : Nat} {ty : Ty} (h : b.argTypes[i]? = some ty) :
    b.localTy ((i : Int) + 1) = .ok ty := by
  rw [argTypes, List.getElem?_map, List.getElem?_drop, Option.map_eq_some_iff] at h
  obtain ⟨decl, hdecl, hty⟩ := h
  have hget : b.locals[1 + i]? = some decl := by
    rw [List.getElem?_take] at hdecl
    split at hdecl
    · exact hdecl
    · cases hdecl
  refine localTy_eq_ok.2 ⟨decl, at?_eq_some.2 ⟨by omega, ?_⟩, hty⟩
  rw [show ((i : Int) + 1).toNat = 1 + i by omega]
  exact hget

theorem argLocals_getElem? {b : Body} {i : Nat} {n : Local} (h : b.argLocals[i]? = some n) :
    n = (i : Int) + 1 := by
  rw [argLocals, List.getElem?_map, Option.map_eq_some_iff] at h
  obtain ⟨k, hk, rfl⟩ := h
  obtain ⟨_, hget⟩ := List.getElem?_eq_some_iff.1 hk
  rw [← hget, List.getElem_range]

theorem checkArgs_eq_ok {n : Local} {vs : List Value} {ts : List Ty} (h : vs.length = ts.length) :
    checkArgs n vs ts = .ok () ↔ List.Forall₂ (fun v t => v.fits t = true) vs ts := by
  induction vs generalizing n ts with
  | nil =>
    obtain rfl := List.length_eq_zero_iff.1 h.symm
    simp [checkArgs]
  | cons v vs ih =>
    cases ts with
    | nil => simp at h
    | cons t ts =>
      rw [checkArgs, List.forall₂_cons, ← ih (n := n + 1) (by simpa using h)]
      cases v.fits t <;> simp

/-- **Which arguments a body accepts**: it has a return place, and the arguments fit the argument
types one by one. -/
theorem seed_eq_ok {b : Body} {args : List Value} {s : State} :
    b.seed args = .ok s ↔
      b.locals ≠ [] ∧ List.Forall₂ (fun v t => v.fits t = true) args b.argTypes ∧
        State.empty.bindAll b.argLocals args = s := by
  rw [seed, signature]
  cases hlocals : b.locals with
  | nil => simp [bind, Except.bind]
  | cons result rest =>
    show (if args.length = b.argTypes.length then
        (checkArgs 1 args b.argTypes >>= fun _ => .ok (State.empty.bindAll b.argLocals args))
      else .error (.argumentCount b.argTypes.length args.length) : Except Fault State) = .ok s ↔ _
    split
    · rename_i hlen
      rw [bind_eq_ok, ← checkArgs_eq_ok (n := 1) hlen]
      cases checkArgs 1 args b.argTypes <;> simp
    · rename_i hlen
      simp only [reduceCtorEq, false_iff, not_and]
      exact fun _ hall => absurd hall.length_eq hlen

/-- The arguments are as many as the body takes, and fit its argument types. -/
def Accepts (b : Body) (args : List Value) : Prop :=
  ∃ s, b.seed args = .ok s

/-- **A local bound at the start** is the one of some argument: it holds that argument, and the
argument fits its declared type. -/
theorem get?_seed {b : Body} {args : List Value} {s : State} (h : b.seed args = .ok s) {n : Local}
    {v : Value} (hn : s.get? n = some v) :
    ∃ i : Nat, n = (i : Int) + 1 ∧ args[i]? = some v ∧
      ∃ ty, b.localTy n = .ok ty ∧ v.fits ty = true := by
  obtain ⟨-, hfits, rfl⟩ := seed_eq_ok.1 h
  rcases State.get?_bindAll hn with ⟨i, hlocal, hv⟩ | hempty
  · obtain rfl := argLocals_getElem? hlocal
    obtain ⟨ty, hty, hfit⟩ := getElem?_of_forall₂ hfits hv
    exact ⟨i, rfl, hv, ty, localTy_of_argTypes hty, hfit⟩
  · rw [State.get?_empty] at hempty
    cases hempty

end Body

end MirRange
