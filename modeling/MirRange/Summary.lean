import MirRange.Body
import MirRange.Document.Literal
import MirRange.Value.Typed

/-!
# Summaries

The summary of a function says what goes in and what comes out, from its declared types alone.

* `Summary`: abstract arguments and result.
* `Body.summary`: the summary of a body.
-/

namespace MirRange

/-- Abstract arguments and, where it is known, the abstract result. -/
structure Summary where
  arguments : List Value
  result : Option Value

namespace Summary

/-- How a summary is written. -/
def text (s : Summary) : String :=
  "(" ++ ", ".intercalate (s.arguments.map Value.text) ++ ") -> "
    ++ (s.result.map Value.text).getD Document.null.literal

/-- The document form of a summary. -/
def toDocument (s : Summary) : Document :=
  .object [("arguments", .list (s.arguments.map Value.toDocument)),
    ("return", (s.result.map Value.toDocument).getD .null)]

end Summary

/-- The summary of a body: the greatest values of its argument types and of its return type. -/
def Body.summary (b : Body) : Except Fault Summary := do
  let (args, result) ← b.signature
  let arguments ← Value.ofTys args
  let result ← Value.ofTy result
  return ⟨arguments, some result⟩

end MirRange
