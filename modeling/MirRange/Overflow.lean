import MirRange.Interpretation
import MirRange.Solver

/-!
# Overflow of checked operations

For every observed checked addition a solver is asked whether operands from the observed intervals,
each in the range of the operand type, can have a sum outside that range.

* `Interval.clamp`: an interval cut down to the range of a type.
* `Overflow.Verdict`: what is known of an observation; `Solver.verdict`: what is known after asking
  a solver; `Overflow.Checker`: any way of coming to verdicts.
* `Diagnostic`: what is reported of an addition that may overflow, or that is not known not to.
* `Overflow.check`, `Overflow.checkAll`: the diagnostics of observations.
-/

namespace MirRange

/-- An interval cut down to a range; an infinite bound becomes the end of the range on its side. -/
def Interval.clamp (i : Interval) (r : IntRange) : IntRange where
  min := match i.lower with
    | .fin n => max r.min n
    | _ => r.min
  max := match i.upper with
    | .fin n => min r.max n
    | _ => r.max

/-- What is cut down to a range lies in it, unless nothing is left. -/
theorem Interval.clamp_isIn {i : Interval} {r : IntRange}
    (h : (i.clamp r).min ≤ (i.clamp r).max) : (i.clamp r).IsIn r := by
  refine ⟨?_, h, ?_⟩
  · unfold clamp
    dsimp only
    split
    · exact Int.le_max_left _ _
    · exact Int.le_refl _
  · unfold clamp
    dsimp only
    split
    · exact Int.min_le_left _ _
    · exact Int.le_refl _

/-- The interval of a value that is one of integers. -/
def Value.interval? : Value → Option Interval
  | .int i => some i
  | .uint i => some i
  | _ => none

/-- What is known of the overflow of a checked operation. -/
inductive Overflow.Verdict where
  /-- The operation is not an addition of integers. -/
  | notAsked
  /-- No operands of the type lie in the intervals. -/
  | noOperands
  /-- No sum leaves the range of the type. -/
  | impossible
  /-- Some sum leaves the range of the type, namely that of the operands that are named. -/
  | possible (witness : Members)
  /-- It could not be decided. -/
  | undecided

/-- Whether an operation with a verdict is reported. -/
def Overflow.Verdict.isAlarm : Verdict → Bool
  | .possible _ => true
  | .undecided => true
  | _ => false

/-- What comes to verdicts, in a time in milliseconds. -/
abbrev Overflow.Checker :=
  (timeoutMs : Int) → CheckedOp → Overflow.Verdict

/-- What an answer says of an addition at a type. -/
def Answer.verdict {w : Nat} (ty : Ty) : Answer w → Overflow.Verdict
  | .sat x y =>
    .possible [("left", .int (Overflow.number ty x)), ("right", .int (Overflow.number ty y))]
  | .unsat => .impossible
  | .unknown => .undecided

namespace Solver

/-- The verdict on an addition of intervals at a type.  Nothing can be asked about vectors without
bits. -/
def decideAdd (s : Solver) (timeoutMs : Int) (ty : Ty) (left right : Interval) :
    Overflow.Verdict :=
  match hwidth : ty.width?, hwithin : ty.range? with
  | some width, some within =>
    if hl : (left.clamp within).min ≤ (left.clamp within).max then
      if hr : (right.clamp within).min ≤ (right.clamp within).max then
        if hpos : 0 < width then
          let question : Question :=
            { ty, width, width_eq := hwidth, pos := hpos, within, within_eq := hwithin
              left := left.clamp within, right := right.clamp within
              left_isIn := Interval.clamp_isIn hl, right_isIn := Interval.clamp_isIn hr }
          (s.answer timeoutMs question).verdict ty
        else .undecided
      else .noOperands
    else .noOperands
  | _, _ => .notAsked

/-- The verdict on an observation. -/
def verdict (s : Solver) (timeoutMs : Int) (c : CheckedOp) : Overflow.Verdict :=
  match c.op, c.left.interval?, c.right.interval? with
  | .add, some left, some right => s.decideAdd timeoutMs c.ty left right
  | _, _, _ => .notAsked

end Solver

/-- What is reported of a checked operation: where it is, and operands for which it overflows, or
that this could not be decided. -/
structure Diagnostic where
  function : String
  location : String
  op : String
  ty : String
  inconclusive : Bool
  witness : Members

namespace Diagnostic

/-- The wording of a diagnostic. -/
def message (d : Diagnostic) : String :=
  if d.inconclusive then
    "Could not decide whether checked " ++ d.op ++ " on " ++ d.ty ++ " may overflow"
  else
    "Checked " ++ d.op ++ " on " ++ d.ty ++ " may overflow (e.g. "
      ++ ", ".intercalate (d.witness.map fun (k, v) => k ++ "=" ++ v.display) ++ ")"

/-- The document form of a diagnostic. -/
def toDocument (d : Diagnostic) : Document :=
  .object <| [("function", .text d.function), ("location", .text d.location), ("op", .text d.op),
      ("type", .text d.ty), ("message", .text d.message)]
    ++ (if d.witness.isEmpty then [] else [("witness", .object d.witness)])
    ++ (if d.inconclusive then [("inconclusive", .bool true)] else [])

end Diagnostic

namespace Overflow

/-- The diagnostic of an observation in a function, if there is a need for one. -/
def check (judge : CheckedOp → Verdict) (function : String) (c : CheckedOp) : Option Diagnostic :=
  let diagnostic : Diagnostic :=
    { function := function
      location := c.location.text
      op := c.op.name
      ty := c.ty.text
      inconclusive := false
      witness := [] }
  match judge c with
  | .possible witness => some { diagnostic with witness := witness }
  | .undecided => some { diagnostic with inconclusive := true }
  | .notAsked | .noOperands | .impossible => none

/-- The diagnostics of the observations in a function, in order. -/
def checkAll (judge : CheckedOp → Verdict) (function : String) (cs : List CheckedOp) :
    List Diagnostic :=
  cs.filterMap (check judge function)

end Overflow

end MirRange
