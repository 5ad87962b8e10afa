import MirRange.Crate
import MirRange.Report
import MirRange.Settings

/-!
# Analysis of crates

Each selected function is examined on its own.  An examination keeps everything that is found on the
way, so that a report and a log can both be read off it.

* `Examination`: how far the examination of a function came.
* `Function.examine`: the examination of a function.
* `Function.analyze`, `Crate.analyze`: the report of a function and of a crate.
* `Crate.analysisLog`: what is logged on the way.
-/

namespace MirRange

/-- How far the examination of a function came. -/
inductive Examination where
  /-- Some local cannot be represented. -/
  | ineligible (f : Fault)
  /-- The argument and return types cannot be told. -/
  | noSignature (f : Fault)
  /-- Some argument, or the result, has no abstract value. -/
  | noSummary (args : List Ty) (result : Ty) (f : Fault)
  /-- The body does not accept the arguments of its summary. -/
  | refused (args : List Ty) (result : Ty) (summary : Summary) (f : Fault)
  /-- The body was run on the arguments of its summary. -/
  | completed (args : List Ty) (result : Ty) (summary : Summary) (run : Run)

namespace Function

/-- Run a body on the arguments of its summary. -/
def examineBody (b : Body) (args : List Ty) (result : Ty) (summary : Summary) :
    Except Violation Examination :=
  match b.interpret summary.arguments with
  | .ok run => .ok (.completed args result summary run)
  | .error (.fault f) => .ok (.refused args result summary f)
  | .error (.violation v) => .error v

/-- Examine a function. -/
def examine (f : Function) : Except Violation Examination :=
  if f.body.isEligible then
    match f.body.signature with
    | .error e => .ok (.noSignature e)
    | .ok (args, result) =>
      match f.body.summary with
      | .error e => .ok (.noSummary args result e)
      | .ok summary => examineBody f.body args result summary
  else .ok (.ineligible (.ineligible f.name (f.body.locals.map LocalDecl.ty)))

end Function

namespace Examination

/-- The report of an examination. -/
def report (checker : Overflow.Checker) (settings : Settings) (name : String) :
    Examination → FunctionReport
  | .ineligible f | .noSignature f | .noSummary _ _ f | .refused _ _ _ f =>
    { name := name, errors := [f.problem.toDocument] }
  | .completed _ _ summary run =>
    { name := name
      summary := some summary
      state := some run.state
      statementErrors := run.faults.map fun f => f.problem.toDocument
      diagnostics :=
        if settings.checkOverflow then
          Overflow.checkAll (checker settings.solverTimeoutMs) name run.checked
        else [] }

/-! ### Log -/

/-- A debugging entry. -/
def debug (source : LogSource) (message : String) : LogEntry :=
  ⟨.debug, source, message⟩

/-- The entries on the types of a function. -/
def signatureLog (args : List Ty) (result : Ty) : List LogEntry :=
  [debug .analysis ("Argument types: " ++ listLiteral (args.map fun t => Text.quote t.text)),
    debug .analysis ("Return type: " ++ result.text)]

/-- The entry on the summary of a function. -/
def summaryLog (summary : Summary) : LogEntry :=
  debug .analysis ("Abstract function: " ++ summary.text)

/-- The entry on the faults of a run, if there are any. -/
def runLog (run : Run) : List LogEntry :=
  if run.faults.isEmpty then []
  else
    [debug .interpreter ("Errors while interpreting body: "
      ++ listLiteral (run.faults.map fun f => Text.quote f.problem.line))]

/-- The entry on the state that a run ends in. -/
def stateLog (s : State) : LogEntry :=
  debug .analysis ("State: "
    ++ objectLiteral (s.bindings.map fun (n, v) => memberLiteral (localText n) (Text.quote v.text)))

/-- The entry on an observation, if its overflow was looked into. -/
def queryLog (judge : CheckedOp → Overflow.Verdict) (name : String) (c : CheckedOp) :
    List LogEntry :=
  let entry (answer : String) :=
    [debug .overflow ("Overflow query for " ++ name ++ " at " ++ c.location.text ++ ": " ++ answer)]
  match judge c with
  | .possible _ => entry "sat"
  | .impossible => entry "unsat"
  | .undecided => entry "unknown"
  | .notAsked | .noOperands => []

/-- What is logged during an examination. -/
def log (checker : Overflow.Checker) (settings : Settings) (name : String) (e : Examination) :
    List LogEntry :=
  debug .analysis ("Checking function: " ++ name) ::
    match e with
    | .ineligible _ | .noSignature _ => []
    | .noSummary args result _ => signatureLog args result
    | .refused args result summary _ => signatureLog args result ++ [summaryLog summary]
    | .completed args result summary run =>
      signatureLog args result ++ [summaryLog summary] ++ runLog run ++ [stateLog run.state]
        ++ if settings.checkOverflow then
            run.checked.flatMap (queryLog (checker settings.solverTimeoutMs) name)
          else []

end Examination

/-- The report of a function. -/
def Function.analyze (checker : Overflow.Checker) (settings : Settings) (f : Function) :
    Except Violation FunctionReport :=
  f.examine.map (Examination.report checker settings f.name)

namespace Crate

/-- The functions to analyse. -/
def selected (c : Crate) (settings : Settings) : List Function :=
  c.functions.filter fun f => settings.selects f.name

/-- The functions that are passed over. -/
def skipped (c : Crate) (settings : Settings) : List Function :=
  c.functions.filter fun f => !settings.selects f.name

/-- The examinations of functions, up to the first violation. -/
def examineAll : List Function → Except Violation (List (Function × Examination))
  | [] => .ok []
  | f :: fs =>
    match f.examine with
    | .error v => .error v
    | .ok e => (examineAll fs).map ((f, e) :: ·)

/-- The reports of functions, up to the first violation. -/
def analyzeAll (checker : Overflow.Checker) (settings : Settings) :
    List Function → Except Violation (List FunctionReport)
  | [] => .ok []
  | f :: fs =>
    match f.analyze checker settings with
    | .error v => .error v
    | .ok r => (analyzeAll checker settings fs).map (r :: ·)

/-- The report of a crate: one report per selected function, in the order of the crate. -/
def analyze (c : Crate) (checker : Overflow.Checker) (settings : Settings) :
    Except Violation CrateReport := do
  let reports ← analyzeAll checker settings (c.selected settings)
  return {
    crate := c.name
    functions := reports
    skipped := (c.skipped settings).map Function.name }

/-- The entry on a function that was not analysed. -/
def failureLog (r : FunctionReport) : List LogEntry :=
  if r.ok then []
  else
    let messages := r.errors.map fun e => ((e.get? "message").map Document.display).getD ""
    [⟨.info, .analysis, "Analysis of " ++ r.name ++ " failed: " ++ "; ".intercalate messages⟩]

/-- What is logged during the analysis of a crate: first function by function, then the failures. -/
def analysisLog (c : Crate) (checker : Overflow.Checker) (settings : Settings) :
    Except Violation (List LogEntry) := do
  let examined ← examineAll (c.selected settings)
  return examined.flatMap (fun (f, e) => e.log checker settings f.name)
    ++ examined.flatMap fun (f, e) => failureLog (e.report checker settings f.name)

end Crate

end MirRange
