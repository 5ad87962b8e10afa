import MirRange.Yaml.Token

/-!
# The nodes of YAML documents

One document is read from its tokens: nested blocks by indentation, flow collections in brackets and
braces, and scalars.  Scalars stay as they are written, and members of mappings stay as they come.

* `Yaml.Node`: scalars, lists and mappings.
* `Yaml.readNode`: a node, with the lists and mappings below it.
* `Yaml.readDocument`: the node of a document.
-/

namespace MirRange.Yaml

/-- A part of a document. -/
inductive Node where
  /-- A scalar without quotes. -/
  | plain (text : String)
  | quoted (text : String)
  | list (items : List Node)
  | mapping (members : List (Node × Node))

/-- The node where nothing is written. -/
def Node.empty : Node :=
  .plain ""

/-- Whether a list of tokens starts with one of some tokens. -/
def startsWith (choices : List Token) (ts : List Token) : Bool :=
  ts.head?.any choices.contains

mutual

/-- A node.  Blocks are nodes only outside flow collections, and items without a list start only
after a key. -/
def readNode (block items : Bool) : Nat → List Token → Except Fault (Node × List Token)
  | 0, _ => .error .noContent
  | fuel + 1, ts =>
    match ts with
    | .plain s :: ts => .ok (.plain s, ts)
    | .quoted s :: ts => .ok (.quoted s, ts)
    | .flowListStart :: ts => do
      let (ns, ts) ← readFlowItems true fuel ts
      return (.list ns, ts)
    | .flowMappingStart :: ts => do
      let (ms, ts) ← readFlowMembers true fuel ts
      return (.mapping ms, ts)
    | .listStart :: ts =>
      if block then do
        let (ns, ts) ← readItems fuel ts
        return (.list ns, ts)
      else .error .noContent
    | .mappingStart :: ts =>
      if block then do
        let (ms, ts) ← readMembers fuel ts
        return (.mapping ms, ts)
      else .error .noContent
    | .item :: ts =>
      if items then do
        let (ns, ts) ← readBareItems fuel (.item :: ts)
        return (.list ns, ts)
      else .error .noContent
    | _ => .error .noContent

/-- The items of a block list, up to its end. -/
def readItems : Nat → List Token → Except Fault (List Node × List Token)
  | 0, _ => .error .noBlockEnd
  | fuel + 1, ts =>
    match ts with
    | .blockEnd :: ts => .ok ([], ts)
    | .item :: ts => do
      let (n, ts) ← readOptional true false [.item, .blockEnd] fuel ts
      let (ns, ts) ← readItems fuel ts
      return (n :: ns, ts)
    | _ => .error .noBlockEnd

/-- The items of a list that is not indented below its key. -/
def readBareItems : Nat → List Token → Except Fault (List Node × List Token)
  | 0, _ => .error .noBlockEnd
  | fuel + 1, ts =>
    match ts with
    | .item :: ts => do
      let (n, ts) ← readOptional true false [.item, .key, .value, .blockEnd] fuel ts
      let (ns, ts) ← readBareItems fuel ts
      return (n :: ns, ts)
    | ts => .ok ([], ts)

/-- The members of a block mapping, up to its end. -/
def readMembers : Nat → List Token → Except Fault (List (Node × Node) × List Token)
  | 0, _ => .error .noBlockEnd
  | fuel + 1, ts =>
    match ts with
    | .blockEnd :: ts => .ok ([], ts)
    | .key :: ts => do
      let ends : List Token := [.key, .value, .blockEnd]
      let (k, ts) ← readOptional true true ends fuel ts
      let (n, ts) ← readValue true true ends fuel ts
      let (ms, ts) ← readMembers fuel ts
      return ((k, n) :: ms, ts)
    | _ => .error .noEntry

/-- The items of a flow list, up to its end.  Before every item but the first comes a comma. -/
def readFlowItems (first : Bool) : Nat → List Token → Except Fault (List Node × List Token)
  | 0, _ => .error .noListEnd
  | fuel + 1, ts =>
    match first, ts with
    | _, .flowListEnd :: ts => .ok ([], ts)
    | true, ts => readFlowItem fuel ts
    | false, .comma :: ts => readFlowItem fuel ts
    | false, _ => .error .noListEnd

/-- An item of a flow list and the items after it.  A key in the list makes a mapping of its own. -/
def readFlowItem : Nat → List Token → Except Fault (List Node × List Token)
  | 0, _ => .error .noListEnd
  | fuel + 1, ts =>
    match ts with
    | .flowListEnd :: ts => .ok ([], ts)
    | .key :: ts => do
      let (k, ts) ← readOptional false false [.value, .comma, .flowListEnd] fuel ts
      let (n, ts) ← readValue false false [.comma, .flowListEnd] fuel ts
      let (ns, ts) ← readFlowItems false fuel ts
      return (.mapping [(k, n)] :: ns, ts)
    | ts => do
      let (n, ts) ← readNode false false fuel ts
      let (ns, ts) ← readFlowItems false fuel ts
      return (n :: ns, ts)

/-- The members of a flow mapping, up to its end.  Before every member but the first comes a
comma. -/
def readFlowMembers (first : Bool) :
    Nat → List Token → Except Fault (List (Node × Node) × List Token)
  | 0, _ => .error .noMappingEnd
  | fuel + 1, ts =>
    match first, ts with
    | _, .flowMappingEnd :: ts => .ok ([], ts)
    | true, ts => readFlowMember fuel ts
    | false, .comma :: ts => readFlowMember fuel ts
    | false, _ => .error .noMappingEnd

/-- A member of a flow mapping and the members after it.  A node alone is a key without a value. -/
def readFlowMember : Nat → List Token → Except Fault (List (Node × Node) × List Token)
  | 0, _ => .error .noMappingEnd
  | fuel + 1, ts =>
    match ts with
    | .flowMappingEnd :: ts => .ok ([], ts)
    | .key :: ts => do
      let (k, ts) ← readOptional false false [.value, .comma, .flowMappingEnd] fuel ts
      let (n, ts) ← readValue false false [.comma, .flowMappingEnd] fuel ts
      let (ms, ts) ← readFlowMembers false fuel ts
      return ((k, n) :: ms, ts)
    | ts => do
      let (k, ts) ← readNode false false fuel ts
      let (ms, ts) ← readFlowMembers false fuel ts
      return ((k, .empty) :: ms, ts)

/-- A node, or the empty one before one of the tokens that can follow it. -/
def readOptional (block items : Bool) (ends : List Token) :
    Nat → List Token → Except Fault (Node × List Token)
  | 0, _ => .error .noContent
  | fuel + 1, ts => if startsWith ends ts then .ok (.empty, ts) else readNode block items fuel ts

/-- The value after a key; it is empty if there is none. -/
def readValue (block items : Bool) (ends : List Token) :
    Nat → List Token → Except Fault (Node × List Token)
  | 0, _ => .error .noContent
  | fuel + 1, ts =>
    match ts with
    | .value :: ts => readOptional block items ends fuel ts
    | ts => .ok (.empty, ts)

end

/-- The fuel that is enough for a number of tokens: at most four readers look at the same token. -/
def nodeFuel (ts : List Token) : Nat :=
  4 * ts.length + 4

/-- The document of a list of tokens; without any content it is empty. -/
def readDocument (ts : List Token) : Except Fault Node := do
  let (n, rest) ←
    match ts with
    | [] => pure (.empty, [])
    | .documentStart :: ts =>
      if ts.isEmpty || startsWith [.documentStart, .documentEnd] ts then pure (.empty, ts)
      else readNode true false (nodeFuel ts) ts
    | ts => readNode true false (nodeFuel ts) ts
  if (rest.dropWhile (· = .documentEnd)).isEmpty then return n else .error .severalDocuments

end MirRange.Yaml
