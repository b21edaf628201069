/-
Arguments with names. An argument `--name value` or `--name=value` gives an option its value, and
`--name` alone sets a flag. Reading goes from left to right: what is wrong with an earlier argument
is found before a later one asks for help.
-/

namespace Nearby.CommandLine

/-! ## Options -/

/-- What an option takes. -/
inductive Shape where
  /-- Nothing; it may be set once. -/
  | flag
  /-- One value; it may be given once. -/
  | single
  /-- Values with commas between them; it may be given again to add more. -/
  | list
  deriving DecidableEq, Repr

/-- An option by its name without dashes. -/
structure OptionSpec where
  name : String
  shape : Shape
  /-- What follows the option is its value even when it begins with a dash. -/
  dashes : Bool := false
  /-- The values that are understood. -/
  accepts : String → Bool := fun _ => true

/-- Why arguments are not carried out. -/
inductive Refusal where
  /-- Help was asked for. -/
  | help
  /-- The arguments cannot be understood. -/
  | misuse
  deriving DecidableEq, Repr

/-! ## Values given so far -/

/-- What the arguments have given so far. -/
structure Given where
  /-- Options with their values, in the order given. -/
  values : List (String × List String) := []
  /-- The last option with its value, which is not yet looked at, or still without one. -/
  pending : Option (OptionSpec × Option String) := none
  /-- Two dashes have ended the options. -/
  ended : Bool := false

namespace Given

/-- The values of an option, in the order given. -/
def valuesOf (g : Given) (name : String) : List String :=
  (g.values.filter fun given => given.1 = name).flatMap Prod.snd

/-- The option occurs among what was given. -/
def has (g : Given) (name : String) : Bool := g.values.any fun given => given.1 = name

/-- The value of an option that is given once. -/
def valueOf (g : Given) (name : String) : Option String := (g.valuesOf name).head?

/-- The single values in the text of an option's value. -/
def splitValue (o : OptionSpec) (value : String) : List String :=
  if o.shape = .list then value.splitOn "," else [value]

/-- Records an option. Only lists may be given again. -/
def record (g : Given) (o : OptionSpec) (values : List String) : Except Refusal Given :=
  if o.shape ≠ .list ∧ g.has o.name then .error .misuse
  else .ok { g with values := g.values ++ [(o.name, values)] }

/-- Records an option with its value, if the value is understood. -/
def supply (g : Given) (o : OptionSpec) (value : String) : Except Refusal Given :=
  let values := splitValue o value
  if values.all o.accepts then g.record o values else .error .misuse

/-- Looks at the pending value. An option that still lacks its value is misused. -/
def settle (g : Given) : Except Refusal Given :=
  match g.pending with
  | none => .ok g
  | some (_, none) => .error .misuse
  | some (o, some value) => { g with pending := none }.supply o value

end Given

/-! ## Reading -/

/-- A level of the command line: its options and the commands that may follow them. -/
structure Level where
  options : List OptionSpec
  commands : List String := []

/-- The argument begins with a dash and is more than a dash. -/
def isDashed (arg : String) : Bool := arg.startsWith "-" && arg ≠ "-"

/-- The name of an argument with two dashes, and the value after its equals sign, if it has one. -/
def splitNamed (arg : String) : Option (String × Option String) :=
  match arg.toList with
  | '-' :: '-' :: cs =>
    let name := String.ofList (cs.takeWhile (· ≠ '='))
    match cs.dropWhile (· ≠ '=') with
    | _ :: value => some (name, some (.ofList value))
    | [] => some (name, none)
  | _ => none

namespace Level

/-- Takes in an argument that names an option. -/
def takeNamed (l : Level) (g : Given) (name : String) (value : Option String) :
    Except Refusal Given :=
  if name = "help" then
    if value.isSome then .error .misuse else g.settle >>= fun _ => .error .help
  else match l.options.find? (fun o => o.name = name), value with
    | none, _ => .error .misuse
    | some o, none => do
      let g ← g.settle
      if o.shape = .flag then g.record o [] else .ok { g with pending := some (o, none) }
    | some o, some value =>
      if o.shape = .flag then .error .misuse else g.settle >>= fun g => g.supply o value

/-- Takes in an argument where no option waits for its value and no command is named. -/
def takeArgument (l : Level) (g : Given) (arg : String) : Except Refusal Given :=
  if arg = "--" then .ok { g with ended := true }
  else match splitNamed arg with
    | some (name, value) => l.takeNamed g name value
    | none => if arg.startsWith "-h" then g.settle >>= fun _ => .error .help else .error .misuse

/-- The option that waits for its value. -/
def awaiting (g : Given) : Option OptionSpec :=
  match g.pending with
  | some (o, none) => some o
  | _ => none

/-- Reads arguments up to the first command. Answers what was given, and the command with the
arguments after it. -/
def readArguments (l : Level) :
    Given → List String → Except Refusal (Given × Option (String × List String))
  | g, [] => .ok (g, none)
  | g, arg :: rest =>
    if g.ended then .error .misuse
    else match awaiting g with
      | some o =>
        if isDashed arg && ! o.dashes then .error .misuse
        else l.readArguments { g with pending := some (o, some arg) } rest
      | none =>
        if l.commands.contains arg then .ok (g, some (arg, rest))
        else match l.takeArgument g arg with
          | .error refusal => .error refusal
          | .ok g => l.readArguments g rest

end Level

end Nearby.CommandLine
