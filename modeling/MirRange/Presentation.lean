import MirRange.Report

/-!
# Presentation of reports

* `Style`: plain text, or text with terminal colours.
* `CrateReport.pretty`: a block for each function.
* `CrateReport.brief`: a line for each function.
* `CrateReport.present`: a report in a named format.
-/

namespace MirRange

/-- How text is set off. -/
inductive Style where
  | plain
  | colored
deriving Repr, DecidableEq

/-- The ways in which text is set off. -/
inductive Emphasis where
  | red | yellow | green | cyan | bold | dim
deriving Repr, DecidableEq

/-- The terminal code of an emphasis. -/
def Emphasis.code : Emphasis → String
  | .red => "31"
  | .yellow => "33"
  | .green => "32"
  | .cyan => "36"
  | .bold => "1"
  | .dim => "2"

namespace Style

/-- Set off a text. -/
def apply : Style → Emphasis → String → String
  | .plain, _, s => s
  | .colored, e, s => "\x1b[" ++ e.code ++ "m" ++ s ++ "\x1b[0m"

/-- The mark of an error. -/
def errorMark (style : Style) : String :=
  style.apply .red "✖"

/-- The mark of a warning. -/
def warningMark (style : Style) : String :=
  style.apply .yellow "▲"

/-- The mark of a success. -/
def okMark (style : Style) : String :=
  style.apply .green "✔"

/-- The mark of a function. -/
def functionMark (style : Style) (r : FunctionReport) : String :=
  if r.ok then style.okMark else style.errorMark

end Style

/-- A text filled with blanks on the right up to a width. -/
def padRight (width : Nat) (s : String) : String :=
  s ++ String.ofList (List.replicate (width - s.length) ' ')

namespace FunctionReport

/-- The message of a reported error. -/
def errorMessage (e : Document) : String :=
  ((e.get? "message").map Document.display).getD "Unknown error"

/-- The block of a function. -/
def pretty (style : Style) (r : FunctionReport) : String :=
  "\n".intercalate <|
    ["\n " ++ style.functionMark r ++ "  " ++ style.apply .bold r.name]
    ++ (r.summary.map fun s =>
        "      " ++ style.apply .dim "summary" ++ " " ++ style.apply .cyan s.text).toList
    ++ ((r.state.map State.sorted).getD []).map (fun (n, v) =>
        "      " ++ padRight 6 (localText n) ++ " " ++ v.text)
    ++ r.errors.map (fun e =>
        "   " ++ style.errorMark ++ "  " ++ style.apply .red (errorMessage e))
    ++ r.statementErrors.map (fun e =>
        "   " ++ style.warningMark ++ "  " ++ style.apply .yellow (errorMessage e))
    ++ r.diagnostics.map fun d =>
        "   " ++ style.warningMark ++ "  " ++ style.apply .dim d.location ++ " "
          ++ style.apply .yellow d.message

end FunctionReport

/-- Why a report cannot be presented: its first error has no message. -/
inductive PresentationError where
  | noMessage
deriving Repr, DecidableEq

namespace CrateReport

/-- The closing line of a report. -/
def verdictLine (style : Style) (r : CrateReport) : String :=
  let total := toString r.functions.length
  let failed := r.failed.length
  let result :=
    if failed = 0 then style.apply .green (total ++ " function(s) analyzed.")
    else style.apply .red (toString failed ++ " of " ++ total ++ " function(s) failed.")
  "\n   " ++ result ++ " " ++ style.apply .dim (r.duration.toDocument.literal ++ "ms") ++ "\n"

/-- A block for each function between a heading and a closing line. -/
def pretty (style : Style) (r : CrateReport) : String :=
  "\n".intercalate <|
    ["\n " ++ style.apply .bold "Analysis results" ++ " " ++ style.apply .dim ("(" ++ r.crate ++ ")"),
      " " ++ style.apply .dim (String.ofList (List.replicate 50 '─'))]
    ++ r.functions.map (FunctionReport.pretty style)
    ++ [r.verdictLine style]

/-- What is said of a function in one line. -/
def briefResult (r : FunctionReport) : Except PresentationError String :=
  match r.summary, r.errors with
  | some s, _ => .ok s.text
  | none, [] => .ok "failed"
  | none, e :: _ =>
    match e.get? "message" with
    | some m => .ok m.display
    | none => .error .noMessage

/-- The lines of functions. -/
def briefLines (style : Style) : List FunctionReport → Except PresentationError (List String)
  | [] => .ok []
  | r :: rs => do
    let result ← briefResult r
    let lines ← briefLines style rs
    return (style.functionMark r ++ " " ++ r.name ++ ": " ++ result) :: lines

/-- A line for each function. -/
def brief (style : Style) (r : CrateReport) : Except PresentationError String := do
  return "\n".intercalate (← briefLines style r.functions)

/-- A report in a named format; an unknown name means the blocks. -/
def present (style : Style) (format : String) (r : CrateReport) :
    Except PresentationError String :=
  if format = "json" then .ok (r.toDocument.toText (some 2))
  else if format = "summary" then r.brief style
  else .ok (r.pretty style)

end CrateReport

end MirRange
