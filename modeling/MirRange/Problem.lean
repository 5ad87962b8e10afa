import MirRange.Document.Writer

/-!
# Problems

A problem is a recoverable failure as it is reported: its kind, a message, and details for
machines.  Causes of problems are types of their own (`Malformed`, `Fault`); each is turned into a
problem where it is reported.

* `ProblemKind`, `Problem`: what is reported.
* `Problem.toDocument`, `Problem.line`: its document form and its one-line form.
-/

namespace MirRange

/-- The kinds of problems. -/
inductive ProblemKind where
  | notImplemented
  | interpreter
  | invalidArgument
  | indexOutOfRange
deriving Repr, DecidableEq

namespace ProblemKind

/-- The name of a kind in reports. -/
def name : ProblemKind → String
  | .notImplemented => "not_implemented"
  | .interpreter => "interpreter_error"
  | .invalidArgument => "invalid_argument"
  | .indexOutOfRange => "index_out_of_range"

/-- All kinds. -/
def all : List ProblemKind :=
  [.notImplemented, .interpreter, .invalidArgument, .indexOutOfRange]

/-- The kind with a given name. -/
def ofName? (s : String) : Option ProblemKind :=
  all.find? fun k => k.name == s

/-- What is said of a kind when there is nothing more to say: its name with blanks. -/
def plain (k : ProblemKind) : String :=
  k.name.map fun c => if c = '_' then ' ' else c

end ProblemKind

/-- A recoverable failure as it is reported. -/
structure Problem where
  kind : ProblemKind
  message : String
  details : Members

namespace Problem

/-- A problem whose message, if empty, is that of its kind. -/
def make (kind : ProblemKind) (message : String) (details : Members) : Problem :=
  { kind := kind, message := if message = "" then kind.plain else message, details := details }

/-- The document form: details are left out if there are none. -/
def toDocument (p : Problem) : Document :=
  .object <| [("kind", .text p.kind.name), ("message", .text p.message)]
    ++ if p.details.isEmpty then [] else [("details", .object p.details)]

/-- The text of the document form, indented. -/
def toText (p : Problem) (indent : Option Int) : String :=
  p.toDocument.toText indent

/-- The one-line form. -/
def line (p : Problem) : String :=
  "[" ++ p.kind.name ++ "]: " ++ p.message

/-- The one-line forms of several problems, one below the other. -/
def lines (ps : List Problem) : String :=
  "\n".intercalate (ps.map line)

/-- The text of the list of document forms. -/
def listText (ps : List Problem) (indent : Option Int) : String :=
  (Document.list (ps.map toDocument)).toText indent

/-- A tuple was indexed outside its arity. -/
def outOfRange (index : Int) (arity : Int) : Problem :=
  { kind := .indexOutOfRange
    message := "Index " ++ toString index ++ " is out of range for a tuple of arity "
      ++ toString arity
    details := [("index", .int index), ("arity", .int arity)] }

end Problem

end MirRange
