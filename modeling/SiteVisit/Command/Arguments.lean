import SiteVisit.Text.Blank
import SiteVisit.Text.Digit
import SiteVisit.Text.Quoted

/-!
Arguments of a command line: options, which begin with a hyphen and may be shortened as long as
they are unambiguous, and one argument that is no option. After two hyphens nothing is an option.
-/

namespace SiteVisit.Command

structure OptionForm where
  names : List String
  takesValue : Bool
  deriving DecidableEq, Repr

def OptionForm.label (o : OptionForm) : String := "/".intercalate o.names

def helpOption : OptionForm := ⟨["-h", "--help"], false⟩

inductive UsageFault
  | ambiguous (written : String) (candidates : List String) : UsageFault
  | missingValue (option : String) : UsageFault
  | ignoredValue (option value : String) : UsageFault
  | missingInput : UsageFault
  | unrecognized (args : List String) : UsageFault
  | noOutputs (options : List String) : UsageFault
  deriving DecidableEq, Repr

def UsageFault.message : UsageFault → String
  | ambiguous written candidates =>
    "ambiguous option: " ++ written ++ " could match " ++ ", ".intercalate candidates
  | missingValue option => "argument " ++ option ++ ": expected one argument"
  | ignoredValue option value =>
    "argument " ++ option ++ ": ignored explicit argument " ++ Text.quoted value
  | missingInput => "the following arguments are required: input"
  | unrecognized args => "unrecognized arguments: " ++ " ".intercalate args
  | noOutputs options => "no outputs selected, use " ++ " or ".intercalate options

inductive Refusal
  | help : Refusal
  | fault (f : UsageFault) : Refusal
  deriving DecidableEq, Repr

inductive Attached
  | nothing : Attached
  /-- What follows a letter without a gap. -/
  | tail (cs : List Char) : Attached
  /-- What follows a sign of equality. -/
  | value (cs : List Char) : Attached
  deriving DecidableEq, Repr

inductive Token
  | option (o : OptionForm) (name : String) (attached : Attached) : Token
  | unknown (arg : String) : Token
  | plain (arg : String) : Token
  /-- Two hyphens. -/
  | separator : Token
  deriving DecidableEq, Repr

def namedOptions (options : List OptionForm) : List (String × OptionForm) :=
  options.flatMap fun o => o.names.map (·, o)

def optionOf? (options : List OptionForm) (name : String) : Option OptionForm :=
  ((namedOptions options).find? (·.1 == name)).map (·.2)

def cutAtEquals (cs : List Char) : List Char × Attached :=
  match cs.dropWhile (· != '=') with
  | [] => (cs, .nothing)
  | _ :: value => (cs.takeWhile (· != '='), .value value)

def candidates (options : List OptionForm) (cs : List Char) :
    List (String × OptionForm × Attached) :=
  (namedOptions options).filterMap fun (name, o) =>
    match cs with
    | '-' :: '-' :: _ =>
      let (start, value) := cutAtEquals cs
      if start.isPrefixOf name.toList then some (name, o, value) else none
    | '-' :: c :: value =>
      if name.toList == ['-', c] then some (name, o, .tail value)
      else if cs.isPrefixOf name.toList then some (name, o, .nothing)
      else none
    | _ => none

def isNegativeNumber (cs : List Char) : Bool :=
  match cs with
  | '-' :: cs =>
    let cs := if cs.getLast? == some '\n' then cs.dropLast else cs
    let fraction := (cs.dropWhile Text.isDigit).drop 1
    if cs.all Text.isDigit then !cs.isEmpty
    else (cs.dropWhile Text.isDigit).head? == some '.' && !fraction.isEmpty &&
      fraction.all Text.isDigit
  | _ => false

def Token.ofArgument (options : List OptionForm) (arg : String) : Except UsageFault Token :=
  let cs := arg.toList
  if cs.head? != some '-' || cs.length == 1 then .ok (.plain arg)
  else
    let (start, value) := cutAtEquals cs
    match optionOf? options arg, optionOf? options (String.ofList start), candidates options cs with
    | some o, _, _ => .ok (.option o arg .nothing)
    | none, some o, _ => .ok (.option o (String.ofList start) value)
    | none, none, [(name, o, value)] => .ok (.option o name value)
    | none, none, [] =>
      if isNegativeNumber cs || cs.contains ' ' then .ok (.plain arg) else .ok (.unknown arg)
    | none, none, several => .error (.ambiguous arg (several.map (·.1)))

def tokens (options : List OptionForm) : List String → Except UsageFault (List Token)
  | [] => .ok []
  | arg :: rest =>
    if arg == "--" then .ok (.separator :: rest.map .plain)
    else do
      let t ← Token.ofArgument options arg
      return t :: (← tokens options rest)

structure Given where
  input : Option String := none
  options : List (OptionForm × String) := []
  leftOver : List String := []
  deriving DecidableEq, Repr

namespace Given

def has (g : Given) (name : String) : Bool := g.options.any fun (o, _) => o.names.contains name

def count (g : Given) (name : String) : Nat :=
  (g.options.filter fun (o, _) => o.names.contains name).length

def value? (g : Given) (name : String) : Option String :=
  ((g.options.filter fun (o, _) => o.names.contains name).getLast?).map (·.2)

def take (g : Given) : List (OptionForm × String) → Except Refusal Given
  | [] => .ok g
  | (o, value) :: rest =>
    if o == helpOption then .error .help
    else take { g with options := g.options ++ [(o, value)] } rest

end Given

structure Cluster where
  flags : List OptionForm := []
  last : Option (OptionForm × Option String) := none
  leftOver : Option String := none
  deriving DecidableEq, Repr

def Cluster.ofTail (options : List OptionForm) (o : OptionForm) :
    List Char → Except UsageFault Cluster
  | [] => .ok { last := some (o, none) }
  | c :: cs =>
    if o.takesValue then .ok { last := some (o, some (String.ofList (c :: cs))) }
    else if c == '-' then .error (.ignoredValue o.label (String.ofList (c :: cs)))
    else
      match optionOf? options (String.ofList ['-', c]), cs with
      | none, _ => .ok { flags := [o], leftOver := some (String.ofList ('-' :: c :: cs)) }
      | some next, '=' :: value =>
        if next.takesValue then
          .ok { flags := [o], last := some (next, some (String.ofList value)) }
        else .error (.ignoredValue next.label (String.ofList value))
      | some next, cs => do
        let more ← ofTail options next cs
        return { more with flags := o :: more.flags }

def Cluster.of (options : List OptionForm) (o : OptionForm) : Attached → Except UsageFault Cluster
  | .nothing => .ok { last := some (o, none) }
  | .tail cs => ofTail options o cs
  | .value cs =>
    if o.takesValue then .ok { last := some (o, some (String.ofList cs)) }
    else .error (.ignoredValue o.label (String.ofList cs))

def takeTokens (options : List OptionForm) (g : Given) : List Token → Except Refusal Given
  | [] => .ok g
  | .plain arg :: rest =>
    match g.input, rest with
    | some _, rest => takeTokens options { g with leftOver := g.leftOver ++ [arg] } rest
    | none, .separator :: rest => takeTokens options { g with input := some arg } rest
    | none, rest => takeTokens options { g with input := some arg } rest
  | .separator :: rest =>
    match g.input, rest with
    | none, .plain arg :: rest => takeTokens options { g with input := some arg } rest
    | _, rest => takeTokens options { g with leftOver := g.leftOver ++ ["--"] } rest
  | .unknown arg :: rest => takeTokens options { g with leftOver := g.leftOver ++ [arg] } rest
  | .option o _ attached :: rest =>
    match Cluster.of options o attached with
    | .error f => .error (.fault f)
    | .ok c =>
      let flags := c.flags.map (·, "")
      let g := { g with leftOver := g.leftOver ++ c.leftOver.toList }
      match c.last, rest with
      | none, rest => do takeTokens options (← g.take flags) rest
      | some (last, some value), rest => do
        takeTokens options (← g.take (flags ++ [(last, value)])) rest
      | some (last, none), .plain arg :: rest =>
        if last.takesValue then do takeTokens options (← g.take (flags ++ [(last, arg)])) rest
        else do takeTokens options (← g.take (flags ++ [(last, "")])) (.plain arg :: rest)
      | some (last, none), rest =>
        if last.takesValue then .error (.fault (.missingValue last.label))
        else do takeTokens options (← g.take (flags ++ [(last, "")])) rest

def readArguments (options : List OptionForm) (args : List String) :
    Except Refusal (String × Given) :=
  let options := helpOption :: options
  match tokens options args with
  | .error f => .error (.fault f)
  | .ok ts => do
    let g ← takeTokens options {} ts
    match g.input, g.leftOver with
    | none, _ => .error (.fault .missingInput)
    | some input, [] => return (input, g)
    | some _, leftOver => .error (.fault (.unrecognized leftOver))

end SiteVisit.Command
