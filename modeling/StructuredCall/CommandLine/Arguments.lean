/-!
# Arguments

The arguments of a command: options with a long and perhaps a short name, with or without a
value, and operands. A value stands behind an equals sign, directly behind a short name, or in
the next argument, where it must not look like an option. Behind two dashes alone everything is
an operand.
-/

namespace StructuredCall.CommandLine

/-- An option of a command. -/
structure OptionSpec where
  long : String
  short : Option Char := none
  takesValue : Bool := false
  /-- Whether the option may be given more than once. -/
  repeatable : Bool := false
  /-- Which values the option accepts. -/
  accepts : String → Bool := fun _ => true

/-- The options and operands of a command. -/
structure CommandSpec where
  name : String
  version : String
  options : List OptionSpec
  /-- How many operands there may be. -/
  maxOperands : Nat

/-- The arguments that were given. -/
structure Given where
  /-- The options by their long names, in order, with their values. -/
  options : List (String × String) := []
  operands : List String := []
deriving Repr, DecidableEq, Inhabited

/-- Why arguments do not lead to a run of the command. -/
inductive Stop
  | invalid
  | showVersion
deriving Repr, DecidableEq, Inhabited

namespace Given

def has (given : Given) (long : String) : Bool :=
  given.options.any (·.1 = long)

def values (given : Given) (long : String) : List String :=
  (given.options.filter (·.1 = long)).map (·.2)

def value? (given : Given) (long : String) : Option String :=
  (given.values long).head?

/-- The arguments with one more option. -/
def addOption (given : Given) (option : OptionSpec) (value : String) : Except Stop Given :=
  if given.has option.long && !option.repeatable then .error .invalid
  else if option.accepts value then
    .ok { given with options := given.options ++ [(option.long, value)] }
  else .error .invalid

/-- The arguments with one more operand. No operand is empty. -/
def addOperand (spec : CommandSpec) (given : Given) (operand : String) : Except Stop Given :=
  if spec.maxOperands ≤ given.operands.length || operand.isEmpty then .error .invalid
  else .ok { given with operands := given.operands ++ [operand] }

end Given

/-- What follows when an argument is read: more arguments, the first of which may be the value of
an option. -/
abbrev Progress := Given × Option OptionSpec

/-- The arguments with an option and the value attached to it, if one is. -/
def Given.takeOption (given : Given) (option : OptionSpec) (attached : Option String) :
    Except Stop Progress :=
  match attached with
  | some value =>
    if option.takesValue then (given.addOption option value).map (·, none) else .error .invalid
  | none =>
    if option.takesValue then .ok (given, some option)
    else (given.addOption option "").map (·, none)

namespace CommandSpec

/-- An option by its long name, perhaps with an equals sign and a value. -/
def takeLong (spec : CommandSpec) (given : Given) (text : List Char) : Except Stop Progress :=
  let name := String.ofList (text.takeWhile (· ≠ '='))
  let attached := match text.dropWhile (· ≠ '=') with
    | [] => none
    | _ :: value => some (String.ofList value)
  match spec.options.find? (·.long = name) with
  | some option => given.takeOption option attached
  | none =>
    .error (if name = "version" && attached.isNone then .showVersion else .invalid)

/-- Options by their short names. The first that takes a value takes all that follows. -/
def takeShorts (spec : CommandSpec) (given : Given) : List Char → Except Stop Progress
  | [] => .ok (given, none)
  | c :: rest =>
    match spec.options.find? (·.short = some c) with
    | none => .error (if c = 'V' then .showVersion else .invalid)
    | some option =>
      if option.takesValue then
        let attached := match rest with
          | [] => none
          | '=' :: value => some (String.ofList value)
          | value => some (String.ofList value)
        given.takeOption option attached
      else
        match given.addOption option "" with
        | .error e => .error e
        | .ok given => spec.takeShorts given rest

/-- Whether an argument looks like an option. -/
def looksLikeOption (argument : String) : Bool :=
  match argument.toList with
  | '-' :: _ :: _ => true
  | _ => false

/-- One argument that is no value of an option before it. -/
def takeArgument (spec : CommandSpec) (given : Given) (argument : String) :
    Except Stop Progress :=
  match argument.toList with
  | '-' :: '-' :: text => spec.takeLong given text
  | '-' :: c :: rest => spec.takeShorts given (c :: rest)
  | _ => (given.addOperand spec argument).map (·, none)

/-- Reads the arguments after those that are given already. -/
def readAfter (spec : CommandSpec) : Progress → List String → Except Stop Given
  | (given, none), [] => .ok given
  | (_, some _), [] => .error .invalid
  | (given, some option), argument :: rest =>
    if looksLikeOption argument then .error .invalid
    else
      match given.addOption option argument with
      | .error e => .error e
      | .ok given => spec.readAfter (given, none) rest
  | (given, none), argument :: rest =>
    if argument = "--" then rest.foldlM (Given.addOperand spec) given
    else
      match spec.takeArgument given argument with
      | .error e => .error e
      | .ok progress => spec.readAfter progress rest

def read (spec : CommandSpec) (arguments : List String) : Except Stop Given :=
  spec.readAfter ({}, none) arguments

end CommandSpec

end StructuredCall.CommandLine
