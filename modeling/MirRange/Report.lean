import MirRange.Overflow
import MirRange.State
import MirRange.Summary

/-!
# Reports

* `FunctionReport`: what was found out about one function.
* `CrateReport`: the reports of a crate's functions, and the functions that were passed over.
* `CrateReport.summaries`: the summaries by name.
-/

namespace MirRange

/-- What was found out about one function.  `errors` hold what kept it from being analysed,
`statementErrors` what ended some of its blocks. -/
structure FunctionReport where
  name : String
  summary : Option Summary := none
  state : Option State := none
  errors : List Document := []
  statementErrors : List Document := []
  diagnostics : List Diagnostic := []

namespace FunctionReport

/-- Whether the function was analysed. -/
def ok (r : FunctionReport) : Bool :=
  r.summary.isSome

/-- A member that is left out if there is nothing to list. -/
def listMember (key : String) (items : List Document) : Members :=
  if items.isEmpty then [] else [(key, .list items)]

/-- The document form of a function report. -/
def toDocument (r : FunctionReport) : Document :=
  .object <| [("function", .text r.name), ("ok", .bool r.ok)]
    ++ (r.summary.map fun s => ("summary", s.toDocument)).toList
    ++ (r.state.map fun s => ("state", s.toDocument)).toList
    ++ listMember "errors" r.errors
    ++ listMember "statement_errors" r.statementErrors
    ++ listMember "diagnostics" (r.diagnostics.map Diagnostic.toDocument)

end FunctionReport

/-- A time span in milliseconds, counted or measured. -/
inductive Millis where
  | counted (n : Int)
  | measured (x : Float)

namespace Millis

/-- No time at all. -/
def zero : Millis :=
  .measured 0

/-- The document form of a time span. -/
def toDocument : Millis → Document
  | .counted n => .int n
  | .measured x => .float x

end Millis

/-- What was found out about a crate. -/
structure CrateReport where
  crate : String
  functions : List FunctionReport := []
  skipped : List String := []
  duration : Millis := .zero

namespace CrateReport

/-- The reports of the functions that were not analysed. -/
def failed (r : CrateReport) : List FunctionReport :=
  r.functions.filter fun f => !f.ok

/-- Store a summary under a name: a known name keeps its place, a new one comes last. -/
def putSummary : List (String × Summary) → String → Summary → List (String × Summary)
  | [], name, s => [(name, s)]
  | (n, old) :: rest, name, s =>
    if n = name then (n, s) :: rest else (n, old) :: putSummary rest name s

/-- The summaries by name; of several functions with one name the last counts. -/
def summaries (r : CrateReport) : List (String × Summary) :=
  r.functions.foldl
    (fun acc f => match f.summary with
      | some s => putSummary acc f.name s
      | none => acc) []

/-- The document form of a crate report. -/
def toDocument (r : CrateReport) : Document :=
  .object [("crate", .text r.crate), ("analyzed", .int r.functions.length),
    ("succeeded", .int ((r.functions.length : Int) - r.failed.length)),
    ("failed", .int r.failed.length), ("skipped", .list (r.skipped.map .text)),
    ("duration_ms", r.duration.toDocument),
    ("functions", .list (r.functions.map FunctionReport.toDocument))]

end CrateReport

end MirRange
