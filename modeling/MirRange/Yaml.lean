import MirRange.Yaml.Node
import MirRange.Yaml.Plain

/-!
# Documents in YAML

One document is read from a text: first its nodes, then the values that they stand for.  Anchors,
aliases, tags, directives and block scalars are refused.

The key `<<` is no key of its own: the entries of the mapping or mappings under it come before the
entries that are written beside it, so that these win.

* `Yaml.Node.key`: the key that a node stands for.
* `Yaml.Node.value`: the value that a node stands for.
* `Yaml.ofText`: the value of a text.
-/

namespace MirRange.Yaml

namespace Node

/-- The key that a node stands for: collections are no keys, and `=` is a text. -/
def key : Node → Except Failure Scalar
  | .plain s => if s = "=" then .ok (.text s) else resolve s
  | .quoted s => .ok (.text s)
  | .list _ | .mapping _ => .error (.fault .badKey)

/-- Whether a node asks for a merge with the mappings under it. -/
def isMerge : Node → Bool
  | .plain s => s = "<<"
  | _ => false

/-- The entries of a mapping: those that are merged, and those of its own. -/
structure Parts where
  merged : List (Scalar × Value) := []
  own : List (Scalar × Value) := []

/-- All entries of a mapping. -/
def Parts.entries (p : Parts) : Entries :=
  Entries.gather (p.merged ++ p.own)

mutual

/-- The value that a node stands for. -/
def value : Node → Except Failure Value
  | .plain s => do return .scalar (← resolve s)
  | .quoted s => .ok (.scalar (.text s))
  | .list items => do return .list (← values items)
  | .mapping ms => do return .mapping (← parts ms).entries

/-- The values of the items of a list. -/
def values : List Node → Except Failure (List Value)
  | [] => .ok []
  | n :: ns => do return (← value n) :: (← values ns)

/-- The entries that members of a mapping stand for. -/
def parts : List (Node × Node) → Except Failure Parts
  | [] => .ok {}
  | (k, n) :: ms =>
    if k.isMerge then do
      let more ← mergedEntries n
      let p ← parts ms
      return { p with merged := more ++ p.merged }
    else do
      let entry := (← k.key, ← value n)
      let p ← parts ms
      return { p with own := entry :: p.own }

/-- The entries of the mapping or mappings that are to be merged. -/
def mergedEntries : Node → Except Failure (List (Scalar × Value))
  | .mapping ms => do return (← parts ms).entries
  | .list items => mergedLists items
  | _ => .error (.fault .badMerge)

/-- The entries of several mappings that are to be merged; the first mapping comes last. -/
def mergedLists : List Node → Except Failure (List (Scalar × Value))
  | [] => .ok []
  | .mapping ms :: ns => do
    let entries := (← parts ms).entries
    return (← mergedLists ns) ++ entries
  | _ :: _ => .error (.fault .badMerge)

end

end Node

/-- The value of the document that a text holds. -/
def ofText (text : String) : Except Failure Value := do
  let ts ← (tokens text).mapError .fault
  (← (readDocument ts).mapError .fault).value

end MirRange.Yaml
