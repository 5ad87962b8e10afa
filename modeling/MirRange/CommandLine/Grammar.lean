import MirRange.Text.Digit
import MirRange.Text.Quoted

/-!
# Grammar of command lines

A command line mixes options with operands.  Every argument is first classified on its own: as an
option, as plain text, or as the separator `--`, after which everything is plain.  Then the options
and operands are taken from left to right.

A long option may be shortened as long as it stays clear which one is meant, and its value may
follow an equals sign.  Short options may be written together after one dash.

* `Grammar`: the options and the operand of a command.
* `Grammar.classify`: how an argument is taken at first sight.
* `Grammar.parse`: the options and operands of a command line.
* `Outcome`, `Grammar.outcome`: what is shown when a command line asks for help or is refused.
-/

namespace MirRange

/-- What a run of the program leaves behind. -/
structure Outcome where
  status : Nat
  out : String := ""
  err : String := ""
deriving Repr, DecidableEq

namespace CommandLine

/-- What an option asks for. -/
inductive Request where
  | help
  | version
  | flag
  /-- A value, one of some choices if there are any. -/
  | value (choices : List String)
deriving Repr, DecidableEq

/-- An option of a command. -/
structure Switch where
  names : List String
  request : Request
  required : Bool := false
deriving Repr, DecidableEq

namespace Switch

/-- Whether a value belongs to an option. -/
def takesValue (o : Switch) : Bool :=
  match o.request with
  | .value _ => true
  | _ => false

/-- How an option is named in messages. -/
def title (o : Switch) : String :=
  "/".intercalate o.names

end Switch

/-- What a command expects besides options. -/
inductive Operand where
  /-- One text. -/
  | single (title : String)
  /-- The name of a command, with a command line of its own. -/
  | command (title : String) (choices : List String)
deriving Repr, DecidableEq

/-- The options and the operand of a command, with the texts that explain them. -/
structure Grammar where
  program : String
  usage : String
  /-- What help says after the usage. -/
  explanation : String
  version : String
  switches : List Switch
  operand : Operand

/-- Why a command line is refused. -/
inductive UsageError where
  | ambiguous (text : String) (choices : List String)
  | noValue (o : Switch)
  | unwantedValue (o : Switch) (value : String)
  | badChoice (title value : String) (choices : List String)
  | required (titles : List String)
  | unrecognized (texts : List String)

/-- The wording of an error. -/
def UsageError.message : UsageError → String
  | ambiguous text choices =>
    "ambiguous option: " ++ text ++ " could match " ++ ", ".intercalate choices
  | noValue o => "argument " ++ o.title ++ ": expected one argument"
  | unwantedValue o value =>
    "argument " ++ o.title ++ ": ignored explicit argument " ++ Text.quote value
  | badChoice title value choices =>
    "argument " ++ title ++ ": invalid choice: " ++ Text.quote value ++ " (choose from "
      ++ ", ".intercalate (choices.map Text.quote) ++ ")"
  | required titles => "the following arguments are required: " ++ ", ".intercalate titles
  | unrecognized texts => "unrecognized arguments: " ++ " ".intercalate texts

/-- Why the reading of a command line ends early. -/
inductive Stop where
  | help
  | version
  | refused (e : UsageError)

/-- How an argument is taken at first sight. -/
inductive Word where
  | plain
  | separator
  /-- An option, with the text that is written in one argument with it: after an equals sign, or
  directly after a short name. -/
  | option (o : Switch) (name : String) (joined : Option String)
  | unknown

/-- What a command line gives for an option. -/
inductive Argument where
  /-- The option does not occur. -/
  | absent
  /-- The option stands alone, or its value is only the separator. -/
  | blank
  | text (s : String)
deriving Repr, DecidableEq

/-- The argument that a text gives: the separator alone gives none. -/
def Argument.ofText (s : String) : Argument :=
  if s = "--" then .blank else .text s

namespace Grammar

/-- What is shown when the reading of a command line ends early. -/
def outcome (g : Grammar) : Stop → Outcome
  | .help => { status := 0, out := g.usage ++ "\n\n" ++ g.explanation }
  | .version => { status := 0, out := g.version ++ "\n" }
  | .refused e =>
    { status := 2, err := g.usage ++ "\n" ++ g.program ++ ": error: " ++ e.message ++ "\n" }

/-- The names of options, each with its option. -/
def named (g : Grammar) : List (String × Switch) :=
  g.switches.flatMap fun o => o.names.map fun name => (name, o)

/-- The option with a name. -/
def find? (g : Grammar) (name : String) : Option Switch :=
  g.named.lookup name

/-! ### Words -/

/-- The part of an argument before its first equals sign, and the part after it. -/
def splitEquals (arg : String) : String × Option String :=
  match arg.toList.dropWhile (· ≠ '=') with
  | _ :: value => (String.ofList (arg.toList.takeWhile (· ≠ '=')), some (String.ofList value))
  | [] => (arg, none)

/-- Whether a name starts with a text. -/
def beginsWith (name text : String) : Bool :=
  text.toList.isPrefixOf name.toList

/-- The options that an argument may mean.  After two dashes it may be the beginning of a name;
after one dash it is a name, or a short name with something joined to it. -/
def candidates (g : Grammar) (arg : String) : List (String × Switch × Option String) :=
  match arg.toList with
  | '-' :: '-' :: _ =>
    let (begun, value) := splitEquals arg
    (g.named.filter fun (name, _) => beginsWith name begun).map fun (name, o) =>
      (name, o, value)
  | a :: b :: rest =>
    g.named.filterMap fun (name, o) =>
      if name.toList = [a, b] then some (name, o, some (String.ofList rest))
      else if beginsWith name arg then some (name, o, none)
      else none
  | _ => []

/-- Whether a text is written like a negative number: digits, or a point and digits, after a
minus sign.  A line feed at the end does not count. -/
def isNegativeNumber (arg : String) : Bool :=
  let isDigit (c : Char) := (Text.digit? c).isSome
  let body := match arg.toList.reverse with
    | '\n' :: cs => cs.reverse
    | cs => cs.reverse
  match body with
  | '-' :: cs =>
    match cs.dropWhile isDigit with
    | [] => !cs.isEmpty
    | '.' :: part => !part.isEmpty && part.all isDigit
    | _ => false
  | _ => false

/-- The word for an argument that is no option as it stands: the beginning of one, a plain text that
starts with a dash, or unknown. -/
def guess (g : Grammar) (arg : String) : Except UsageError Word :=
  match g.candidates arg with
  | [(name, o, joined)] => .ok (.option o name joined)
  | [] => .ok (if isNegativeNumber arg || arg.toList.contains ' ' then .plain else .unknown)
  | several => .error (.ambiguous arg (several.map Prod.fst))

/-- How an argument is taken at first sight. -/
def classify (g : Grammar) (arg : String) : Except UsageError Word :=
  match arg.toList, g.find? arg with
  | '-' :: rest, none =>
    match rest, splitEquals arg with
    | [], _ => .ok .plain
    | _, (name, some value) =>
      match g.find? name with
      | some o => .ok (.option o name (some value))
      | none => g.guess arg
    | _, (_, none) => g.guess arg
  | '-' :: _, some o => .ok (.option o arg none)
  | _, _ => .ok .plain

/-- The words of a command line, with their texts. -/
def words (g : Grammar) : List String → Except UsageError (List (String × Word))
  | [] => .ok []
  | "--" :: rest => .ok (("--", .separator) :: rest.map (·, .plain))
  | arg :: rest => do
    let w ← g.classify arg
    let ws ← words g rest
    return (arg, w) :: ws

end Grammar

/-! ### Options and operands -/

/-- What a command line says. -/
structure Parsed where
  /-- The options in their order, each under its last name, with their values. -/
  given : List (String × Argument) := []
  /-- The operand, with the arguments after the name of a command. -/
  operand : Option (String × List String) := none
  /-- What belongs to nothing. -/
  extras : List String := []

namespace Parsed

/-- Whether an option was given. -/
def has (p : Parsed) (name : String) : Bool :=
  p.given.any fun (n, _) => n = name

/-- What is given for an option in the end. -/
def argument (p : Parsed) (name : String) : Argument :=
  (p.given.reverse.lookup name).getD .absent

/-- Add an argument that belongs to nothing. -/
def extra (p : Parsed) (text : String) : Parsed :=
  { p with extras := p.extras ++ [text] }

/-- Follow an option.  Only a text has to be one of the choices. -/
def follow (p : Parsed) (o : Switch) (arg : Argument) : Except Stop Parsed :=
  let record := { p with given := p.given ++ [(o.names.getLast?.getD "", arg)] }
  match o.request, arg with
  | .help, _ => .error .help
  | .version, _ => .error .version
  | .value choices, .text s =>
    if choices.isEmpty || choices.contains s then .ok record
    else .error (.refused (.badChoice o.title s choices))
  | _, _ => .ok record

/-- Follow options one after the other. -/
def followAll (p : Parsed) : List (Switch × Argument) → Except Stop Parsed
  | [] => .ok p
  | (o, arg) :: rest => do
    let p ← p.follow o arg
    p.followAll rest

end Parsed

/-- Options that are written in one argument. -/
structure Cluster where
  given : List (Switch × Argument) := []
  /-- The last option, if its value is still to come. -/
  waiting : Option Switch := none

namespace Cluster

/-- The cluster of one option that nothing is joined to. -/
def single (o : Switch) : Cluster :=
  if o.takesValue then { waiting := some o } else { given := [(o, .blank)] }

/-- A cluster after one more option before it. -/
def after (o : Switch) (c : Cluster) : Cluster :=
  { c with given := (o, .blank) :: c.given }

end Cluster

namespace Grammar

/-- The options in one argument: an option, and the text that is joined to it.  If a short option
takes no value, then the text is made of more short options. -/
def cluster (g : Grammar) (o : Switch) (name : String) (text : List Char) :
    Except UsageError Cluster :=
  let unwanted := Except.error (.unwantedValue o (String.ofList text))
  if o.takesValue then .ok { given := [(o, .ofText (String.ofList text))] }
  else if beginsWith name "--" then unwanted
  else
    match text with
    | [] => unwanted
    | c :: rest =>
      let short := String.ofList ['-', c]
      match g.find? short, rest with
      | none, _ => unwanted
      | some next, [] => .ok (.after o (.single next))
      | some next, rest => (g.cluster next short rest).map (.after o)
termination_by text.length

/-- The options in one argument. -/
def optionCluster (g : Grammar) (o : Switch) (name : String) :
    Option String → Except UsageError Cluster
  | some text => g.cluster o name text.toList
  | none => .ok (.single o)

/-- Take an operand, given the arguments after it. -/
def takeOperand (g : Grammar) (p : Parsed) (text : String) (rest : List String) :
    Except Stop Parsed :=
  match g.operand with
  | .single _ => .ok { p with operand := some (text, []) }
  | .command title choices =>
    if choices.contains text then .ok { p with operand := some (text, rest) }
    else .error (.refused (.badChoice title text choices))

/-- Whether an operand takes all the arguments after it. -/
def takesRest (g : Grammar) : Bool :=
  match g.operand with
  | .single _ => false
  | .command .. => true

/-- Take options and operands from left to right.  A separator next to a single operand belongs to
it. -/
def take (g : Grammar) : Parsed → List (String × Word) → Except Stop Parsed
  | p, [] => .ok p
  | p, (text, .unknown) :: rest => take g (p.extra text) rest
  | p, (_, .option o name joined) :: rest =>
    match g.optionCluster o name joined with
    | .error e => .error (.refused e)
    | .ok c => do
      match c.waiting, rest with
      | none, rest => take g (← p.followAll c.given) rest
      | some last, (value, .plain) :: rest =>
        take g (← p.followAll (c.given ++ [(last, .text value)])) rest
      | some last, _ => .error (.refused (.noValue last))
  | p, (text, .plain) :: rest =>
    if p.operand.isSome then take g (p.extra text) rest
    else do
      let p ← g.takeOperand p text (rest.map Prod.fst)
      if g.takesRest then return p
      match rest with
      | (_, .separator) :: rest => take g p rest
      | rest => take g p rest
  | p, (text, .separator) :: rest =>
    match p.operand, rest with
    | none, (next, .plain) :: rest =>
      if g.takesRest then g.takeOperand p text (next :: rest.map Prod.fst)
      else do take g (← g.takeOperand p next []) rest
    | _, rest => take g (p.extra text) rest

/-- What a command line must have and does not. -/
def missing (g : Grammar) (p : Parsed) : List String :=
  let operand := match g.operand with
    | .single title => if p.operand.isSome then [] else [title]
    | .command .. => []
  let lacking := g.switches.filter fun o => o.required && !p.has (o.names.getLast?.getD "")
  operand ++ lacking.map Switch.title

/-- The options and operands of a command line. -/
def parse (g : Grammar) (args : List String) : Except Stop Parsed := do
  let ws ← (g.words args).mapError .refused
  let p ← g.take {} ws
  match g.missing p with
  | [] => return p
  | titles => .error (.refused (.required titles))

end Grammar

end CommandLine

end MirRange
