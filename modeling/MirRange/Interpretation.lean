import MirRange.State
import MirRange.Summary
import MirRange.Violation

/-!
# Interpretation of bodies

A body is run once, block after block, over abstract values.  A statement that cannot be evaluated
ends its block; its fault is collected and the next block is run on the state reached so far.
Checked operations are observed as they are evaluated, and their overflow flag is taken to be false.

* `BinOp.apply`: the effect of an operator on abstract values.
* `Operand.eval`, `Rvalue.eval`: evaluation of operands and rvalues.
* `Statement.run`, `Run.block`, `Run.blocks`: running statements and blocks.
* `Body.interpret`: a body on given arguments.
-/

namespace MirRange

/-- The position of a statement: its block and its place in the block. -/
structure Location where
  block : Nat
  statement : Nat
deriving Repr, DecidableEq

/-- How a location is written. -/
def Location.text (l : Location) : String :=
  "bb" ++ toString l.block ++ "[" ++ toString l.statement ++ "]"

/-- A checked operation as it was evaluated: where, on which values, and at which type. -/
structure CheckedOp where
  location : Location
  op : BinOp
  left : Value
  right : Value
  ty : Ty

/-- The document form of an observation. -/
def CheckedOp.toDocument (c : CheckedOp) : Document :=
  .object [("location", .text c.location.text), ("op", .text c.op.name),
    ("left", c.left.toDocument), ("right", c.right.toDocument), ("ty", .text c.ty.text)]

/-- Why an evaluation does not return: a fault, which is reported, or a violated precondition, which
ends everything. -/
inductive Interrupt where
  | fault (f : Fault)
  | violation (v : Violation)

/-- An operator applied to abstract values: addition and comparison of integers of one signedness,
and equality of truth values. -/
def BinOp.apply (op : BinOp) (left right : Value) : Except Fault Value :=
  match op, left, right with
  | .add, .int a, .int b => .ok (.int (a.add b))
  | .add, .uint a, .uint b => .ok (.uint (a.add b))
  | .eq, .bool a, .bool b => .ok (.bool (a.equals b))
  | .eq, .int a, .int b => .ok (.bool (a.equals b))
  | .eq, .uint a, .uint b => .ok (.bool (a.equals b))
  | .lt, .int a, .int b => .ok (.bool (a.lessThan b))
  | .lt, .uint a, .uint b => .ok (.bool (a.lessThan b))
  | _, _, _ => .error (.unsupportedOperator op left.variant right.variant)

/-! ### Evaluation -/

/-- The value of a constant: only boolean ones have one. -/
def Const.eval (c : Const) : Except Interrupt Value :=
  match c.ty with
  | .bool => ((Truth.ofConst c).map Value.bool).mapError .violation
  | ty => .error (.fault (.unsupportedConst ty))

/-- The value of an operand. -/
def Operand.eval (s : State) : Operand → Except Interrupt Value
  | .copy p => (s.read p).mapError .fault
  | .move p => (s.read p).mapError .fault
  | .const c => c.eval

/-- An operator on two operands: their values, and that of the result. -/
def BinOp.eval (op : BinOp) (s : State) (left right : Operand) :
    Except Interrupt (Value × Value × Value) := do
  let l ← left.eval s
  let r ← right.eval s
  let v ← (op.apply l r).mapError .fault
  return (l, r, v)

/-- The value of an rvalue, with the checked operation that was observed on the way.  A checked
operation gives its result and the flag that it did not overflow. -/
def Rvalue.eval (b : Body) (loc : Location) (s : State) :
    Rvalue → Except Interrupt (Value × Option CheckedOp)
  | .use x => do
    let v ← x.eval s
    return (v, none)
  | .binary op left right => do
    let (_, _, v) ← op.eval s left right
    return (v, none)
  | .checked op left right => do
    let (l, r, v) ← op.eval s left right
    let ty ← (b.operandTy left).mapError .fault
    return (.tuple [v, .bool .false], some ⟨loc, op, l, r, ty⟩)
  | rv => .error (.fault (.unsupportedRvalue rv))

/-- What a statement does: the state after it, the checked operation observed in it, and the fault
that ended it. -/
structure Effect where
  state : State
  observed : Option CheckedOp
  fault : Option Fault

/-- Write a value, keeping what was observed while it was evaluated. -/
def State.store (b : Body) (s : State) (p : Place) (v : Value) (observed : Option CheckedOp) :
    Effect :=
  match s.write b p v with
  | .ok after => ⟨after, observed, none⟩
  | .error f => ⟨s, observed, some f⟩

/-- Run one statement.  A fault leaves the state as it was. -/
def Statement.run (b : Body) (loc : Location) (s : State) :
    Statement → Except Violation Effect
  | .assign p rv =>
    match rv.eval b loc s with
    | .ok (v, observed) => .ok (s.store b p v observed)
    | .error (.fault f) => .ok ⟨s, none, some f⟩
    | .error (.violation v) => .error v
  | .deinit p => .ok (s.store b p .uninit none)
  | stmt => .ok ⟨s, none, some (.unsupportedStatement stmt)⟩

/-! ### Runs -/

/-- A run so far: the state reached, the faults that ended blocks and the checked operations
observed, both in order. -/
structure Run where
  state : State
  faults : List Fault
  checked : List CheckedOp

namespace Run

/-- The run before its first statement. -/
def start (s : State) : Run :=
  ⟨s, [], []⟩

/-- The run after one more statement. -/
def after (r : Run) (e : Effect) : Run :=
  { state := e.state
    faults := r.faults ++ e.fault.toList
    checked := r.checked ++ e.observed.toList }

/-- Run the statements of a block from position `i` on, up to the first fault. -/
def block (b : Body) (bb : Nat) : Nat → List Statement → Run → Except Violation Run
  | _, [], r => .ok r
  | i, stmt :: rest, r => do
    let e ← stmt.run b ⟨bb, i⟩ r.state
    if e.fault.isSome then return r.after e else block b bb (i + 1) rest (r.after e)

/-- Run blocks from number `bb` on. -/
def blocks (b : Body) : Nat → List (List Statement) → Run → Except Violation Run
  | _, [], r => .ok r
  | bb, stmts :: rest, r => do
    let r ← block b bb 0 stmts r
    blocks b (bb + 1) rest r

end Run

namespace Body

/-- Check arguments against their types, from local `n` on. -/
def checkArgs : Local → List Value → List Ty → Except Fault Unit
  | n, v :: vs, t :: ts => if v.fits t then checkArgs (n + 1) vs ts else .error (.argumentType n v t)
  | _, _, _ => .ok ()

/-- The state that a body starts from on given arguments. -/
def seed (b : Body) (args : List Value) : Except Fault State := do
  let (types, _) ← b.signature
  if args.length = types.length then
    checkArgs 1 args types
    return State.empty.bindAll b.argLocals args
  else .error (.argumentCount types.length args.length)

/-- Run a body on given arguments. -/
def interpret (b : Body) (args : List Value) : Except Interrupt Run :=
  match b.seed args with
  | .error f => .error (.fault f)
  | .ok s => (Run.blocks b 0 b.blocks (Run.start s)).mapError .violation

/-- Whether every local has a type that can be analysed. -/
def isEligible (b : Body) : Bool :=
  b.locals.all fun decl => decl.ty.isEligible

end Body

end MirRange
