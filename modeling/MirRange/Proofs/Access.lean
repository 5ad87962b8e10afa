import MirRange.Proofs.Description

/-!
# Accesses that are guarded

A crate is read from documents of any shape.  Some accesses to them check what they need; others go
ahead and need it: that a document has members or items, that a key is present, that a list has so
many items, that a name is known.  Here the reader is written down with accesses that slip where
what they need is not there.  It never slips, since each of them is behind a check that makes it
safe, and so it is the reader of the library: documents that describe no crate are refused as
malformed and in no other way.

* `Access.Slip`, `Access.Failure`: accesses that go wrong, and how reading ends without a result.
* `Access.member`, `Access.items`, …: the accesses that can slip.
* `Access.place`, …, `Access.crate`: the readers that are made of them.
* `Access.place_eq`, …, `Access.crate_eq`: they are the readers of the library.
* `Crate.reading_guarded`: what follows for crates.
-/

namespace MirRange

variable {α β : Type}

/-- Whether a document has a shape.  A truth value passes as an integer. -/
def Shape.fits : Shape → Document → Bool
  | .list, .list _ => true
  | .object, .object _ => true
  | .text, .text _ => true
  | .integer, .int _ => true
  | .integer, .bool _ => true
  | _, _ => false

theorem Shape.fits_object (ms : Members) : Shape.object.fits (.object ms) = true :=
  rfl

namespace Access

/-! ### Accesses -/

/-- An access that went ahead without what it needs. -/
inductive Slip where
  /-- A key that an object does not have. -/
  | noKey (key : String)
  /-- Members of what is no object. -/
  | noObject (d : Document)
  /-- Items of what is no list. -/
  | noList (d : Document)
  /-- A list taken apart into another number of items. -/
  | noFit (ds : List Document)
  /-- The text of what is no text. -/
  | noText (d : Document)
  /-- The number that is no integer. -/
  | noInteger (d : Document)
  /-- The constant of a name that none has. -/
  | noName (d : Document)

/-- How reading ends without a result. -/
inductive Failure where
  | refused (m : Malformed)
  | slipped (s : Slip)

def refuse (m : Malformed) : Except Failure α :=
  .error (.refused m)

def slip (s : Slip) : Except Failure α :=
  .error (.slipped s)

/-- The value under a key, if it is present. -/
def member? (d : Document) (key : String) : Except Failure (Option Document) :=
  match d with
  | .object ms => .ok (Members.get? ms key)
  | d => slip (.noObject d)

/-- The value under a key, which is taken to be present. -/
def member (d : Document) (key : String) : Except Failure Document := do
  match ← member? d key with
  | some x => .ok x
  | none => slip (.noKey key)

/-- Whether a key is present. -/
def has (d : Document) (key : String) : Except Failure Bool :=
  (member? d key).map Option.isSome

def items : Document → Except Failure (List Document)
  | .list ds => .ok ds
  | d => slip (.noList d)

def text : Document → Except Failure String
  | .text s => .ok s
  | d => slip (.noText d)

def number : Document → Except Failure Int
  | .int n => .ok n
  | d => slip (.noInteger d)

/-- What has a name, which is taken to be one of those in a list. -/
def named (all : List α) (name : α → String) (x : Document) : Except Failure α :=
  match x with
  | .text s =>
    match all.find? fun a => name a == s with
    | some a => .ok a
    | none => slip (.noName x)
  | x => slip (.noName x)

/-- A name that slips is refused instead. -/
def orRefuse (m : Malformed) : Except Failure α → Except Failure α
  | .error (.slipped (.noName _)) => refuse m
  | x => x

/-! ### Checks -/

/-- The value under a key that must be present and have a shape. -/
def require (d : Document) (key : String) (expected : Shape) : Except Failure Document :=
  if Shape.object.fits d then do
    if ← has d key then
      let x ← member d key
      if expected.fits x then .ok x else refuse (.shape key expected)
    else refuse (.missingKey key)
  else refuse (.missingKey key)

/-- The items of the list under a key. -/
def requireItems (d : Document) (key : String) : Except Failure (List Document) := do
  items (← require d key .list)

/-- The text under a key. -/
def requireText (d : Document) (key : String) : Except Failure String := do
  text (← require d key .text)

def isTruth : Document → Bool
  | .bool _ => true
  | _ => false

/-- A document that must be an integer and no truth value. -/
def integer (key : String) (x : Document) : Except Failure Int :=
  if isTruth x || !Shape.integer.fits x then refuse (.notInteger key x) else number x

/-- The integer under a key. -/
def requireInteger (d : Document) (key : String) : Except Failure Int := do
  integer key (← require d key .integer)

def flag (d : Document) (key : String) : Except Failure Bool :=
  (member? d key).map fun x => (x.map Document.holds).getD false

/-- Read by the first key that is present. -/
def dispatch (d : Document) (other : Malformed) :
    List (String × (Document → Except Failure α)) → Except Failure α
  | [] => refuse other
  | (key, read) :: rest => do
    if ← has d key then read d else dispatch d other rest

/-- Read an object by the first key that is present. -/
def byKey (d : Document) (other : Malformed)
    (readers : List (String × (Document → Except Failure α))) : Except Failure α :=
  if Shape.object.fits d then dispatch d other readers else refuse other

/-! ### Types -/

/-- The kind of a type, which must be text. -/
def kind (d : Document) : Except Failure String :=
  if Shape.object.fits d then do
    if (← member? d "kind").any Shape.text.fits then text (← member d "kind") else refuse (.type d)
  else refuse (.type d)

/-- Whether a width is left open or that of a pointer. -/
def isOpen : Document → Bool
  | .null => true
  | .text s => s = "size"
  | _ => false

/-- A document that must be a width. -/
def asWidth (given : Document) : Except Failure Nat :=
  let x := if isOpen given then .int 64 else given
  if isTruth x || !Shape.integer.fits x then refuse (.width x)
  else do
    let n ← number x
    if n ≤ 0 then refuse (.width x) else return n.toNat

def width (d : Document) : Except Failure Nat := do
  asWidth ((← member? d "bits").getD (.int 64))

theorem sizeOf_of_member? {d x : Document} {key : String} (h : member? d key = .ok (some x)) :
    sizeOf x < sizeOf d := by
  cases d with
  | object ms =>
    have hx : (Document.object ms).get? key = some x := Except.ok.inj h
    exact Document.sizeOf_get? hx
  | _ => cases h

theorem sizeOf_of_member {d x : Document} {key : String} (h : member d key = .ok x) :
    sizeOf x < sizeOf d := by
  obtain ⟨y, hy, h⟩ := bind_eq_ok.1 h
  cases y with
  | some y =>
    cases h
    exact sizeOf_of_member? hy
  | none => cases h

theorem sizeOf_of_items {d : Document} {ds : List Document} (h : items d = .ok ds) :
    sizeOf ds < sizeOf d := by
  cases d with
  | list ds' =>
    obtain rfl := Except.ok.inj h
    simp
  | _ => cases h

mutual

def type (d : Document) : Except Failure Ty :=
  match kind d with
  | .error s => .error s
  | .ok kind =>
    if kind = "bool" then .ok .bool
    else if kind = "int" then do return .int (← width d)
    else if kind = "uint" then do return .uint (← width d)
    else if kind = "float" then do return .float (← width d)
    else if kind = "tuple" then
      match h : member? d "fields" with
      | .error s => .error s
      | .ok none => .ok (.tuple [])
      | .ok (some x) =>
        if Shape.list.fits x then
          match h' : items x with
          | .error s => .error s
          | .ok ds =>
            have := sizeOf_of_member? h
            have := sizeOf_of_items h'
            do return .tuple (← types ds)
        else refuse (.fields x)
    else if kind = "ref" then
      match has d "pointee" with
      | .error s => .error s
      | .ok false => refuse .missingPointee
      | .ok true =>
        match h : member d "pointee" with
        | .error s => .error s
        | .ok x =>
          have := sizeOf_of_member h
          do return .ref (← type x) (← flag d "mutable")
    else if kind = "adt" then do
      return .adt (((← member? d "name").map Document.display).getD "")
    else if kind = "str" then .ok .str
    else refuse (.typeKind kind)
termination_by sizeOf d

def types (ds : List Document) : Except Failure (List Ty) :=
  match ds with
  | [] => .ok []
  | d :: ds => do return (← type d) :: (← types ds)
termination_by sizeOf ds

end

/-! ### Places and operands -/

def projection (d : Document) : Except Failure Projection :=
  byKey d (.projectionElement d)
    [("field", fun d => do return .field (← integer "field" (← member d "field"))),
      ("index", fun d => do return .index (← integer "index" (← member d "index"))),
      ("deref", fun _ => .ok .deref)]

/-- A document that must be a list of steps. -/
def asPath (x : Document) : Except Failure (List Projection) :=
  if Shape.list.fits x then do (← items x).mapM projection else refuse (.projection x)

def place (d : Document) : Except Failure Place := do
  let base ← requireInteger d "local"
  let path ← asPath ((← member? d "projection").getD (.list []))
  return ⟨base, path⟩

def isByte (x : Document) : Bool :=
  match x with
  | .null => true
  | x => Shape.integer.fits x && !isTruth x

def byte : Document → Except Failure (Option Int)
  | .null => .ok none
  | x => (number x).map some

/-- A document that must be a list of bytes. -/
def asBytes (x : Document) : Except Failure (List (Option Int)) :=
  if Shape.list.fits x then do
    let ds ← items x
    if ds.all isByte then ds.mapM byte else refuse (.constBytes x)
  else refuse (.constBytes x)

/-- A document that must name the kind of a constant. -/
def asConstKind (x : Document) : Except Failure ConstKind :=
  orRefuse (.constKind x) (named ConstKind.all ConstKind.name x)

def constant (d : Document) : Except Failure Const := do
  let kind ← asConstKind ((← member? d "kind").getD (.text "allocated"))
  let bytes ← asBytes ((← member? d "bytes").getD (.list []))
  let ty ← type (← require d "ty" .object)
  return ⟨ty, bytes, kind⟩

def operand (d : Document) : Except Failure Operand :=
  byKey d (.operand d)
    [("copy", fun d => do return .copy (← place (← member d "copy"))),
      ("move", fun d => do return .move (← place (← member d "move"))),
      ("const", fun d => do return .const (← constant (← require d "const" .object)))]

/-! ### Rvalues and statements -/

/-- The items of a list that must have so many. -/
def unpack (what : Listed) (arity : Nat) (x : Document) : Except Failure (List Document) :=
  if Shape.list.fits x then do
    let ds ← items x
    if ds.length = arity then .ok ds else refuse (.listed what x)
  else refuse (.listed what x)

/-- A document that must name a binary operator. -/
def asBinOp (x : Document) : Except Failure BinOp :=
  orRefuse (.binaryOperator x) (named BinOp.all BinOp.name x)

/-- A document that must name a unary operator. -/
def asUnOp (x : Document) : Except Failure UnOp :=
  orRefuse (.unaryOperator x) (named UnOp.all UnOp.name x)

def binary (what : Listed) (x : Document) : Except Failure (BinOp × Operand × Operand) := do
  match ← unpack what 3 x with
  | [op, l, r] =>
    return (← asBinOp op, ← operand l, ← operand r)
  | ds => slip (.noFit ds)

def unary (x : Document) : Except Failure (UnOp × Operand) := do
  match ← unpack .unary 2 x with
  | [op, y] =>
    return (← asUnOp op, ← operand y)
  | ds => slip (.noFit ds)

def ref (x : Document) : Except Failure Rvalue := do
  return .ref (← place (← require x "place" .object)) (← flag x "mutable")

def cast (x : Document) : Except Failure Rvalue := do
  return .cast (← operand (← require x "operand" .object)) (← type (← require x "ty" .object))

def rvalue (d : Document) : Except Failure Rvalue :=
  byKey d (.rvalue d)
    [("use", fun d => do return .use (← operand (← member d "use"))),
      ("binary_op", fun d => do
        return (fun (op, l, r) => .binary op l r) (← binary .binary (← member d "binary_op"))),
      ("checked_binary_op", fun d => do
        return (fun (op, l, r) => .checked op l r)
          (← binary .checked (← member d "checked_binary_op"))),
      ("unary_op", fun d => do
        return (fun (op, x) => .unary op x) (← unary (← member d "unary_op"))),
      ("ref", fun d => do ref (← member d "ref")),
      ("aggregate", fun d => do
        return .aggregate (← (← requireItems d "aggregate").mapM operand)),
      ("cast", fun d => do cast (← member d "cast"))]

def assign (x : Document) : Except Failure Statement := do
  return .assign (← place (← require x "place" .object)) (← rvalue (← require x "rvalue" .object))

def statement (d : Document) : Except Failure Statement :=
  byKey d (.statement d)
    [("assign", fun d => do assign (← member d "assign")),
      ("deinit", fun d => do return .deinit (← place (← member d "deinit"))),
      ("storage_live", fun d => do
        return .storageLive (← integer "storage_live" (← member d "storage_live"))),
      ("storage_dead", fun d => do
        return .storageDead (← integer "storage_dead" (← member d "storage_dead"))),
      ("nop", fun _ => .ok .nop)]

/-! ### Bodies and crates -/

def declaration (d : Document) : Except Failure LocalDecl := do
  return ⟨← type (← require d "ty" .object), ← flag d "mutable"⟩

def block (d : Document) : Except Failure (List Statement) := do
  (← requireItems d "statements").mapM statement

def body (d : Document) : Except Failure Body := do
  let blocks ← (← requireItems d "blocks").mapM block
  let locals ← (← requireItems d "locals").mapM declaration
  let argCount ← integer "arg_count" ((← member? d "arg_count").getD (.int 0))
  return ⟨blocks, locals, argCount⟩

def function (d : Document) : Except Failure Function := do
  let name ← requireText d "name"
  let body ← body (← require d "body" .object)
  return ⟨name, body⟩

def crate (d : Document) : Except Failure Crate :=
  if Shape.object.fits d then do
    let functions ← (← requireItems d "functions").mapM function
    let name := ((← member? d "crate").map Document.display).getD "main"
    return ⟨name, functions⟩
  else refuse .crate

/-! ### Accesses behind their checks -/

/-- Reading that can be refused and does nothing else. -/
def lift (x : Except Malformed α) : Except Failure α :=
  x.mapError .refused

@[simp] theorem lift_ok (a : α) : lift (.ok a) = .ok a :=
  rfl

@[simp] theorem lift_error (m : Malformed) : lift (.error m : Except Malformed α) = refuse m :=
  rfl

theorem lift_bind (x : Except Malformed α) (f : α → Except Malformed β) :
    lift (x >>= f) = lift x >>= fun a => lift (f a) := by
  cases x <;> rfl

theorem lift_map (x : Except Malformed α) (f : α → β) :
    lift (x.map f) = lift x >>= fun a => pure (f a) := by
  cases x <;> rfl

theorem ite_eq_lift {p : Prop} [Decidable p] {x y : Except Failure α} {x' y' : Except Malformed α}
    (hx : x = lift x') (hy : y = lift y') : (if p then x else y) = lift (if p then x' else y') := by
  split
  · exact hx
  · exact hy

theorem lift_pure (a : α) : lift (pure a) = pure a :=
  rfl

section

variable {d x : Document} {key : String}

theorem member?_object (ms : Members) (key : String) :
    member? (.object ms) key = .ok ((Document.object ms).get? key) :=
  rfl

theorem has_object (ms : Members) (key : String) :
    has (.object ms) key = .ok ((Document.object ms).get? key).isSome :=
  rfl

theorem flag_object (ms : Members) (key : String) :
    flag (.object ms) key = .ok ((Document.object ms).flag key) :=
  rfl

theorem member_of_get? (h : d.get? key = some x) : member d key = .ok x := by
  obtain ⟨ms, rfl⟩ := Document.exists_object h
  rw [member, member?_object, h]
  rfl

/-- The check that a key is present makes the access to it safe. -/
theorem require_eq (d : Document) (key : String) (expected : Shape) :
    require d key expected = lift (d.require key) >>= fun x =>
      if expected.fits x then .ok x else refuse (.shape key expected) := by
  cases d with
  | object ms =>
    rw [require, if_pos (Shape.fits_object ms), has_object, Document.require]
    cases hx : (Document.object ms).get? key with
    | some x =>
      rw [member_of_get? hx]
      rfl
    | none => rfl
  | _ => rfl

-- Without the check the access slips.
example : member (.object []) "local" = slip (.noKey "local") ∧
    require (.object []) "local" .integer = refuse (.missingKey "local") :=
  ⟨rfl, rfl⟩

theorem require_of_get? {expected : Shape} (h : d.get? key = some x) :
    require d key expected = if expected.fits x then .ok x else refuse (.shape key expected) := by
  rw [require_eq, Document.require, h]
  rfl

/-- The check of a shape makes the access that relies on it safe. -/
theorem require_bind {expected : Shape} {bare : Document → Except Failure α}
    {read : Document → Except Malformed α}
    (h : ∀ x, (if expected.fits x then bare x else refuse (.shape key expected)) = lift (read x)) :
    (do bare (← require d key expected)) = lift (do read (← d.require key)) := by
  rw [require_eq, lift_bind, bind_assoc]
  congr
  funext x
  rw [← h]
  split <;> rfl

theorem require_object_eq (d : Document) (key : String) :
    require d key .object = lift (d.requireObject key) := by
  rw [← bind_pure (require d key .object)]
  exact require_bind fun x => by cases x <;> rfl

theorem requireItems_eq (d : Document) (key : String) :
    requireItems d key = lift (d.requireList key) :=
  require_bind fun x => by cases x <;> rfl

theorem requireText_eq (d : Document) (key : String) :
    requireText d key = lift (d.requireText key) :=
  require_bind fun x => by cases x <;> rfl

theorem integer_eq (key : String) (x : Document) :
    integer key x = lift (Document.integer key x) := by
  cases x <;> rfl

/-- A truth value passes the check for the shape and is refused by the next one. -/
theorem requireInteger_eq (d : Document) (key : String) :
    requireInteger d key = lift (d.requireInteger key) :=
  require_bind fun x => by cases x <;> rfl

theorem mapM_eq {bare : Document → Except Failure α} {read : Document → Except Malformed α}
    (h : ∀ d, bare d = lift (read d)) (ds : List Document) :
    ds.mapM bare = lift (readAll read ds) := by
  induction ds with
  | nil => rfl
  | cons d ds ih => simp only [List.mapM_cons, readAll, lift_bind, lift_pure, h, ih]

/-- A reader of objects with a key reads what another one reads under that key. -/
def Follows (bare : String × (Document → Except Failure α))
    (reader : String × (Document → Except Malformed α)) : Prop :=
  bare.1 = reader.1 ∧ ∀ d x, d.get? reader.1 = some x → bare.2 d = lift (reader.2 x)

theorem Follows.under {bare : Document → Except Failure α} {read : Document → Except Malformed α}
    (h : ∀ x, bare x = lift (read x)) :
    Follows (key, fun d => do bare (← member d key)) (key, read) := by
  refine ⟨rfl, fun d x hx => ?_⟩
  show (do bare (← member d key)) = _
  rw [member_of_get? hx]
  exact h x

theorem Follows.map {f : α → β} {bare : Document → Except Failure α}
    {read : Document → Except Malformed α} (h : ∀ x, bare x = lift (read x)) :
    Follows (key, fun d => do return f (← bare (← member d key)))
      (key, fun x => (read x).map f) := by
  refine Follows.under (fun x => ?_)
  rw [h, lift_map]

theorem Follows.const {a : α} : Follows (key, fun _ => .ok a) (key, fun _ => .ok a) :=
  ⟨rfl, fun _ _ _ => rfl⟩

theorem dispatch_eq {ms : Members} {other : Malformed}
    {bares : List (String × (Document → Except Failure α))}
    {readers : List (String × (Document → Except Malformed α))}
    (h : List.Forall₂ Follows bares readers) :
    dispatch (.object ms) other bares = lift ((Document.object ms).dispatch other readers) := by
  induction h with
  | nil => rfl
  | @cons bare reader bares readers hread hrest ih =>
    obtain ⟨key, bare⟩ := bare
    obtain ⟨_, read⟩ := reader
    obtain ⟨rfl, hread⟩ := hread
    rw [dispatch, has_object]
    cases hx : (Document.object ms).get? key with
    | some x =>
      rw [Document.dispatch_of_some hx]
      exact hread _ _ hx
    | none =>
      rw [Document.dispatch_of_none hx]
      exact ih

theorem dispatch_no_object {other : Malformed}
    {readers : List (String × (Document → Except Malformed α))} (h : Shape.object.fits d = false) :
    d.dispatch other readers = .error other := by
  induction readers with
  | nil => rfl
  | cons reader readers ih =>
    have hnone : d.get? reader.1 = none := by
      cases d <;> first | rfl | cases h
    rw [← ih]
    exact Document.dispatch_of_none hnone

theorem byKey_eq {other : Malformed} {bares : List (String × (Document → Except Failure α))}
    {readers : List (String × (Document → Except Malformed α))}
    (h : List.Forall₂ Follows bares readers) :
    byKey d other bares = lift (d.dispatch other readers) := by
  cases hobject : Shape.object.fits d with
  | true =>
    cases d with
    | object ms => exact dispatch_eq h
    | _ => cases hobject
  | false =>
    rw [dispatch_no_object hobject, byKey, hobject]
    rfl

theorem orRefuse_of_some {all : List α} {name : α → String} {m : Malformed} {s : String} {a : α}
    (h : all.find? (fun a => name a == s) = some a) :
    orRefuse m (named all name (.text s)) = .ok a := by
  rw [named, h]
  rfl

theorem orRefuse_of_none {all : List α} {name : α → String} {m : Malformed} {s : String}
    (h : all.find? (fun a => name a == s) = none) :
    orRefuse m (named all name (.text s)) = refuse m := by
  rw [named, h]
  rfl

end

/-! ### The readers never slip -/

section

variable {d : Document}

theorem kind_of_get? {s : String} (h : d.get? "kind" = some (.text s)) : kind d = .ok s := by
  obtain ⟨ms, rfl⟩ := Document.exists_object h
  rw [kind, if_pos (Shape.fits_object ms), member?_object, h, member_of_get? h]
  rfl

theorem kind_of_no_text (h : ∀ s, d.get? "kind" ≠ some (.text s)) : kind d = refuse (.type d) := by
  cases d with
  | object ms =>
    rw [kind, if_pos (Shape.fits_object ms), member?_object]
    cases hx : (Document.object ms).get? "kind" with
    | some x =>
      cases x with
      | text s => exact absurd hx (h s)
      | _ => rfl
    | none => rfl
  | _ => rfl

theorem asWidth_int (n : Int) :
    asWidth (.int n) = if n ≤ 0 then refuse (.width (.int n)) else .ok n.toNat :=
  rfl

theorem width_eq (ms : Members) : width (.object ms) = lift (Ty.readWidth (.object ms)) := by
  show asWidth (((Document.object ms).get? "bits").getD (.int 64)) = _
  rw [Ty.readWidth]
  cases (Document.object ms).get? "bits" with
  | none => rfl
  | some x =>
    cases x with
    | int n =>
      by_cases hn : n > 0
      · simp only [Option.getD_some, asWidth_int, if_neg (Int.not_le.2 hn), if_pos hn, lift_ok]
      · simp only [Option.getD_some, asWidth_int, if_pos (Int.not_lt.1 hn), if_neg hn, lift_error]
    | text s =>
      by_cases hs : s = "size"
      · subst hs
        rfl
      · simp [asWidth, isOpen, isTruth, Shape.fits, hs]
    | _ => rfl

theorem types_eq {ds : List Document} (h : ∀ d ∈ ds, type d = lift (Ty.ofDocument d)) :
    types ds = lift (readAll Ty.ofDocument ds) := by
  induction ds with
  | nil =>
    rw [types]
    rfl
  | cons d ds ih =>
    obtain ⟨hd, hds⟩ := List.forall_mem_cons.1 h
    rw [types, hd, ih hds]
    simp only [readAll, lift_bind, lift_pure]

/-- One level of reading a type: the presence of the fields and of the pointee is checked, and so is
that the fields are a list. -/
theorem type_object_eq {ms : Members} {s : String}
    (hkind : (Document.object ms).get? "kind" = some (.text s))
    (ih : ∀ d, sizeOf d < sizeOf (Document.object ms) → type d = lift (Ty.ofDocument d)) :
    type (.object ms) = lift (Ty.readKind (.object ms) s) := by
  have hwidth (f : Nat → Ty) : (do return f (← width (.object ms))) =
      lift ((Ty.readWidth (.object ms)).map f) := by
    rw [width_eq, lift_map]
  rw [Ty.readKind, type, kind_of_get? hkind]
  refine ite_eq_lift rfl (ite_eq_lift (hwidth _) (ite_eq_lift (hwidth _) (ite_eq_lift (hwidth _)
    (ite_eq_lift ?tuple (ite_eq_lift ?ref (ite_eq_lift rfl (ite_eq_lift rfl rfl)))))))
  case tuple =>
    split
    · rename_i h
      cases h
    · rename_i h
      rw [show (Document.object ms).get? "fields" = none from Except.ok.inj h]
      rfl
    · rename_i x h
      have hx : (Document.object ms).get? "fields" = some x := Except.ok.inj h
      rw [hx]
      cases x with
      | list ds =>
        have hds := types_eq fun d hd => ih d (Ty.sizeOf_field hx hd)
        show (do return Ty.tuple (← types ds)) = _
        rw [hds]
        exact (lift_map _ _).symm
      | _ => rfl
  case ref =>
    rw [has_object]
    cases hx : (Document.object ms).get? "pointee" with
    | none => rfl
    | some x =>
      dsimp only [Option.isSome_some]
      split
      · rename_i h
        rw [member_of_get? hx] at h
        cases h
      · rename_i y h
        obtain rfl : x = y := Except.ok.inj ((member_of_get? hx).symm.trans h)
        rw [ih x (Document.sizeOf_get? hx), lift_map]
        rfl

theorem type_eq (d : Document) : type d = lift (Ty.ofDocument d) := by
  by_cases hkind : ∃ s, d.get? "kind" = some (.text s)
  · obtain ⟨s, hkind⟩ := hkind
    have ih (d' : Document) (hsize : sizeOf d' < sizeOf d) : type d' = lift (Ty.ofDocument d') :=
      type_eq d'
    rw [Ty.ofDocument_of_kind hkind]
    obtain ⟨ms, rfl⟩ := Document.exists_object hkind
    exact type_object_eq hkind ih
  · rw [not_exists] at hkind
    rw [Ty.ofDocument_of_no_kind hkind, type, kind_of_no_text hkind]
    rfl
termination_by sizeOf d

/-! Places and operands. -/

theorem projection_eq (d : Document) : projection d = lift (Projection.ofDocument d) := by
  rw [Projection.ofDocument_eq]
  exact byKey_eq (.cons (.map (integer_eq _)) (.cons (.map (integer_eq _)) (.cons .const .nil)))

theorem place_eq (d : Document) : place d = lift (Place.ofDocument d) := by
  cases d with
  | object ms =>
    rw [place, Place.ofDocument, requireInteger_eq, lift_bind]
    congr
    funext base
    show (do
      let path ← asPath (((Document.object ms).get? "projection").getD (.list []))
      return Place.mk base path) = _
    cases (Document.object ms).get? "projection" with
    | none => rfl
    | some x =>
      cases x with
      | list ds =>
        show (do return Place.mk base (← ds.mapM projection)) = _
        rw [mapM_eq projection_eq, ← lift_map]
        rfl
      | _ => rfl
  | _ => rfl

theorem byte_of_isByte {x : Document} (h : isByte x = true) :
    ∃ b, Const.byte? x = some b ∧ byte x = .ok b := by
  cases x with
  | null => exact ⟨none, rfl, rfl⟩
  | int n => exact ⟨some n, rfl, rfl⟩
  | _ => cases h

theorem byte?_of_not_isByte {x : Document} (h : isByte x = false) : Const.byte? x = none := by
  cases x <;> first | rfl | cases h

/-- After the check each byte is one. -/
theorem bytes_of_all {ds : List Document} (h : ds.all isByte = true) :
    ∃ bs, Const.bytes? ds = some bs ∧ ds.mapM byte = .ok bs := by
  induction ds with
  | nil => exact ⟨[], rfl, rfl⟩
  | cons d ds ih =>
    rw [List.all_cons, Bool.and_eq_true] at h
    obtain ⟨b, hb, hb'⟩ := byte_of_isByte h.1
    obtain ⟨bs, hbs, hbs'⟩ := ih h.2
    refine ⟨b :: bs, ?_, ?_⟩
    · rw [Const.bytes?, hb, hbs]
      rfl
    · rw [List.mapM_cons, hb', hbs']
      rfl

theorem bytes?_of_not_all {ds : List Document} (h : ds.all isByte = false) :
    Const.bytes? ds = none := by
  induction ds with
  | nil => cases h
  | cons d ds ih =>
    rw [List.all_cons, Bool.and_eq_false_iff] at h
    rw [Const.bytes?]
    rcases h with hd | hds
    · rw [byte?_of_not_isByte hd]
      rfl
    · rw [ih hds]
      cases Const.byte? d <;> rfl

theorem asBytes_eq (ms : Members) :
    asBytes (((Document.object ms).get? "bytes").getD (.list [])) =
      lift (Const.readBytes (.object ms)) := by
  rw [Const.readBytes]
  cases (Document.object ms).get? "bytes" with
  | none => rfl
  | some x =>
    cases x with
    | list ds =>
      show (if ds.all isByte then ds.mapM byte else refuse (.constBytes (.list ds))) = _
      cases hall : ds.all isByte with
      | true =>
        obtain ⟨bs, hbs, hbs'⟩ := bytes_of_all hall
        simp only [hbs, hbs', if_true, lift_ok]
      | false => simp [bytes?_of_not_all hall]
    | _ => rfl

theorem asConstKind_eq (ms : Members) :
    asConstKind (((Document.object ms).get? "kind").getD (.text "allocated")) =
      lift (ConstKind.ofDocument (.object ms)) := by
  rw [ConstKind.ofDocument]
  cases (Document.object ms).get? "kind" with
  | none => rfl
  | some x =>
    cases x with
    | text s =>
      cases hs : ConstKind.ofName? s with
      | some kind => simpa [asConstKind, hs] using orRefuse_of_some hs
      | none => simpa [asConstKind, hs] using orRefuse_of_none hs
    | _ => rfl

theorem constant_eq (ms : Members) :
    constant (.object ms) = lift (Const.ofDocument (.object ms)) := by
  show (do
    let kind ← asConstKind (((Document.object ms).get? "kind").getD (.text "allocated"))
    let bytes ← asBytes (((Document.object ms).get? "bytes").getD (.list []))
    let ty ← type (← require (.object ms) "ty" .object)
    return Const.mk ty bytes kind) = _
  simp only [asConstKind_eq, asBytes_eq, require_object_eq, type_eq, Const.ofDocument, lift_bind,
    lift_pure]

theorem operand_eq (d : Document) : operand d = lift (Operand.ofDocument d) := by
  rw [Operand.ofDocument_eq]
  refine byKey_eq (.cons (.map place_eq) (.cons (.map place_eq) (.cons ⟨rfl, ?_⟩ .nil)))
  intro d x hx
  show (do return Operand.const (← constant (← require d "const" .object))) = _
  rw [require_of_get? hx]
  cases x with
  | object ms =>
    show (do return Operand.const (← constant (.object ms))) = _
    rw [constant_eq, ← lift_map]
    rfl
  | _ => rfl

/-! Rvalues and statements. -/

theorem asBinOp_eq (x : Document) : asBinOp x = lift (BinOp.ofDocument x) := by
  cases x with
  | text s =>
    rw [BinOp.ofDocument]
    cases hs : BinOp.ofName? s with
    | some op => exact orRefuse_of_some hs
    | none => exact orRefuse_of_none hs
  | _ => rfl

theorem asUnOp_eq (x : Document) : asUnOp x = lift (UnOp.ofDocument x) := by
  cases x with
  | text s =>
    rw [UnOp.ofDocument]
    cases hs : UnOp.ofName? s with
    | some op => exact orRefuse_of_some hs
    | none => exact orRefuse_of_none hs
  | _ => rfl

theorem unpack_list (what : Listed) (arity : Nat) (ds : List Document) :
    unpack what arity (.list ds) =
      if ds.length = arity then .ok ds else refuse (.listed what (.list ds)) :=
  rfl

/-- A list that is taken apart into three items has three. -/
theorem binary_eq (what : Listed) (x : Document) :
    binary what x = lift (Rvalue.readBinary what x) := by
  cases x with
  | list ds =>
    match ds with
    | [op, l, r] =>
      rw [binary, unpack_list, if_pos (by simp)]
      show (do return (← asBinOp op, ← operand l, ← operand r)) = _
      simp only [asBinOp_eq, operand_eq, Rvalue.readBinary, lift_bind, lift_pure]
    | [] | [_] | [_, _] | _ :: _ :: _ :: _ :: _ =>
      rw [binary, unpack_list, if_neg (by simp)]
      rfl
  | _ => rfl

theorem unary_eq (x : Document) : unary x = lift (Rvalue.readUnary x) := by
  cases x with
  | list ds =>
    match ds with
    | [op, y] =>
      rw [unary, unpack_list, if_pos (by simp)]
      show (do return (← asUnOp op, ← operand y)) = _
      simp only [asUnOp_eq, operand_eq, Rvalue.readUnary, lift_bind, lift_pure]
    | [] | [_] | _ :: _ :: _ :: _ =>
      rw [unary, unpack_list, if_neg (by simp)]
      rfl
  | _ => rfl

theorem ref_eq (x : Document) : ref x = lift (Rvalue.readRef x) := by
  cases x with
  | object ms =>
    simp only [ref, require_object_eq, place_eq, flag_object, Rvalue.readRef, lift_bind, lift_pure]
    rfl
  | _ => rfl

theorem cast_eq (x : Document) : cast x = lift (Rvalue.readCast x) := by
  simp only [cast, require_object_eq, operand_eq, type_eq, Rvalue.readCast, lift_bind, lift_pure]

theorem rvalue_eq (d : Document) : rvalue d = lift (Rvalue.ofDocument d) := by
  rw [Rvalue.ofDocument_eq]
  refine byKey_eq (.cons (.map operand_eq) (.cons (.map (binary_eq _)) (.cons (.map (binary_eq _))
    (.cons (.map unary_eq) (.cons (.under ref_eq) (.cons ⟨rfl, ?_⟩
      (.cons (.under cast_eq) .nil)))))))
  intro d x hx
  show (do return Rvalue.aggregate (← (← requireItems d "aggregate").mapM operand)) = _
  rw [requireItems, require_of_get? hx]
  cases x with
  | list ds =>
    show (do return Rvalue.aggregate (← ds.mapM operand)) = _
    rw [mapM_eq operand_eq, ← lift_map]
    rfl
  | _ => rfl

theorem assign_eq (x : Document) : assign x = lift (Statement.readAssign x) := by
  simp only [assign, require_object_eq, place_eq, rvalue_eq, Statement.readAssign, lift_bind,
    lift_pure]

theorem statement_eq (d : Document) : statement d = lift (Statement.ofDocument d) := by
  rw [Statement.ofDocument_eq]
  exact byKey_eq (.cons (.under assign_eq) (.cons (.map place_eq) (.cons (.map (integer_eq _))
    (.cons (.map (integer_eq _)) (.cons .const .nil)))))

/-! Bodies and crates. -/

theorem declaration_eq (d : Document) : declaration d = lift (LocalDecl.ofDocument d) := by
  cases d with
  | object ms =>
    simp only [declaration, require_object_eq, type_eq, flag_object, LocalDecl.ofDocument,
      lift_bind, lift_pure]
    rfl
  | _ => rfl

theorem block_eq (d : Document) : block d = lift (Body.readBlock d) := by
  simp only [block, requireItems_eq, mapM_eq statement_eq, Body.readBlock, lift_bind]

theorem argCount_eq (ms : Members) :
    integer "arg_count" (((Document.object ms).get? "arg_count").getD (.int 0)) =
      lift (Body.readArgCount (.object ms)) := by
  rw [Body.readArgCount]
  cases (Document.object ms).get? "arg_count" with
  | none => rfl
  | some x => exact integer_eq _ x

theorem body_eq (d : Document) : body d = lift (Body.ofDocument d) := by
  cases d with
  | object ms =>
    simp only [body, requireItems_eq, mapM_eq block_eq, mapM_eq declaration_eq, Body.ofDocument,
      lift_bind, lift_pure, ← argCount_eq]
    rfl
  | _ => rfl

theorem function_eq (d : Document) : function d = lift (Function.ofDocument d) := by
  simp only [function, requireText_eq, require_object_eq, body_eq, Function.ofDocument, lift_bind,
    lift_pure]

theorem crate_eq (d : Document) : crate d = lift (Crate.ofDocument d) := by
  cases d with
  | object ms =>
    simp only [crate, Shape.fits_object, if_true, requireItems_eq, mapM_eq function_eq,
      Crate.ofDocument, lift_bind, lift_pure]
    rfl
  | _ => rfl

end

end Access

/-- Reading a crate never slips.  A document is accepted exactly if it describes a crate, whose
number types then have a positive width; any other is refused as an invalid argument. -/
theorem Crate.reading_guarded (d : Document) :
    (∀ c, ofDocument d = .ok c ↔ Described d c) ∧
    ((∃ c, ofDocument d = .ok c ∧ Access.crate d = .ok c ∧ Positive c.widths) ∨
      ∃ m, ofDocument d = .error m ∧ Access.crate d = .error (.refused m) ∧
        m.problem.kind = .invalidArgument) := by
  refine ⟨fun c => Crate.exact.read_eq_ok, ?_⟩
  rw [Access.crate_eq]
  cases h : ofDocument d with
  | ok c => exact .inl ⟨c, rfl, rfl, Crate.lossless.positive h⟩
  | error m => exact .inr ⟨m, rfl, rfl, rfl⟩

end MirRange
