import CombatTrials.Numeric.Decimal

/-!
# Arguments of a command line

Arguments are read from left to right, and the first that cannot be accepted decides: everything
after it is ignored, and so is what would be missing at the end. An option has a long name and
perhaps a short one; it is a switch, or it takes a value. Values follow as the next argument, after
an equals sign, or, for short names, in the same argument. Short names of switches can be written
together.

`Arguments.scan` reads arguments up to the first that is no option, which is the name of a command
where commands are expected.
-/

namespace CombatTrials
namespace CommandLine

/-- An option. -/
structure OptionSpec where
  long : String
  short : Option Char := none
  /-- What is said about the option. -/
  about : String
  takesValue : Bool := true
  /-- The value that counts when none is given. -/
  standard : Option String := none
  /-- Which values can be given. -/
  accepts : String → Bool := fun _ => true

/-- Why a command line is not accepted. -/
inductive UsageError where
  | unexpectedArgument (argument : String)
  | missingValue (option : String)
  | unexpectedValue (option : String)
  | repeated (option : String)
  | invalidValue (option value : String)
  | missingOption (option : String)
  | missingCommand
  | unknownCommand (name : String)
  deriving DecidableEq, Repr

/-- A usage error in words. -/
def UsageError.message : UsageError → String
  | .unexpectedArgument argument => s!"unexpected argument '{argument}' found"
  | .missingValue option => s!"a value is required for '--{option}' but none was supplied"
  | .unexpectedValue option => s!"unexpected value for '--{option}' found; no more were expected"
  | .repeated option => s!"the argument '--{option}' cannot be used multiple times"
  | .invalidValue option value => s!"invalid value '{value}' for '--{option}'"
  | .missingOption option => s!"the required argument '--{option}' was not provided"
  | .missingCommand => "a subcommand is required but one was not provided"
  | .unknownCommand name => s!"unrecognized subcommand '{name}'"

/-- The options that were given, with their values, the latest first. A switch has an empty
value. -/
abbrev Given := List (String × String)

/-- Notes an option, which must not have been given before, with a value that it accepts. -/
def Given.add (given : Given) (spec : OptionSpec) (value : String) : Except UsageError Given :=
  if (given.lookup spec.long).isSome then .error (.repeated spec.long)
  else if spec.accepts value then .ok ((spec.long, value) :: given)
  else .error (.invalidValue spec.long value)

/-- Whether an argument is written like an option. -/
def looksLikeOption (argument : String) : Bool := argument.startsWith "-" && argument != "-"

/-- The characters before the first equals sign, and those after it if there is one. -/
def splitEquals : List Char → List Char × Option (List Char)
  | [] => ([], none)
  | '=' :: rest => ([], some rest)
  | c :: rest =>
    let (name, value) := splitEquals rest
    (c :: name, value)

/-- What reading one option comes to: the options given so far, or an option that still lacks its
value. -/
inductive Reading where
  | done (given : Given)
  | awaiting (spec : OptionSpec) (given : Given)

/-- Reads a long option, without its dashes. -/
def readLong (specs : List OptionSpec) (given : Given) (body : List Char) :
    Except UsageError Reading :=
  let (name, value) := splitEquals body
  match specs.find? (·.long == String.ofList name) with
  | none => .error (.unexpectedArgument ("--" ++ String.ofList body))
  | some spec =>
    match spec.takesValue, value with
    | true, some value => (given.add spec (String.ofList value)).map .done
    | true, none => .ok (.awaiting spec given)
    | false, none => (given.add spec "").map .done
    | false, some _ => .error (.unexpectedValue spec.long)

/-- Reads short options that are written together, without their dash. Nothing after a `stop` option
counts. -/
def readShorts (specs : List OptionSpec) (stop : String → Bool) (given : Given) :
    List Char → Except UsageError Reading
  | [] => .ok (.done given)
  | c :: rest =>
    match specs.find? (·.short == some c) with
    | none => .error (.unexpectedArgument ("-" ++ c.toString))
    | some spec =>
      if spec.takesValue then
        match rest with
        | [] => .ok (.awaiting spec given)
        | '=' :: value => (given.add spec (String.ofList value)).map .done
        | value => (given.add spec (String.ofList value)).map .done
      else
        match given.add spec "" with
        | .error e => .error e
        | .ok given =>
          if stop spec.long then .ok (.done given) else readShorts specs stop given rest

/-- Reads one argument that is written like an option. -/
def readOption (specs : List OptionSpec) (stop : String → Bool) (given : Given)
    (argument : String) : Except UsageError Reading :=
  match argument.toList with
  | '-' :: '-' :: body => readLong specs given body
  | _ :: body => readShorts specs stop given body
  | [] => .error (.unexpectedArgument argument)

/-- What scanning arguments comes to. -/
structure Scanned where
  given : Given
  /-- The arguments from the first one on that is no option. -/
  rest : List String

/-- Reads options up to the first argument that is none. A `stop` option ends the scan at once,
whatever follows it; two dashes end the options. -/
def scan (specs : List OptionSpec) (stop : String → Bool) (given : Given) :
    List String → Except UsageError Scanned
  | [] => .ok ⟨given, []⟩
  | argument :: rest =>
    if argument == "--" then
      match rest with
      | [] => .ok ⟨given, []⟩
      | next :: _ => .error (.unexpectedArgument next)
    else if looksLikeOption argument then
      match readOption specs stop given argument with
      | .error e => .error e
      | .ok (.done given) =>
        if given.any (fun (name, _) => stop name) then .ok ⟨given, []⟩
        else scan specs stop given rest
      | .ok (.awaiting spec given) =>
        match rest with
        | value :: rest =>
          if looksLikeOption value then .error (.missingValue spec.long)
          else
            match given.add spec value with
            | .error e => .error e
            | .ok given => scan specs stop given rest
        | [] => .error (.missingValue spec.long)
    else .ok ⟨given, argument :: rest⟩

/-! ## Values -/

/-- The digits of an integer without a sign of its own. -/
def digits? (digits : List Char) : Option Nat :=
  if digits.isEmpty || !digits.all Char.isDigit then none else some (Numeric.ofDigits digits)

/-- An integer without a minus sign; a plus sign is allowed. -/
def unsigned? (s : String) : Option Nat :=
  match s.toList with
  | '+' :: rest => digits? rest
  | rest => digits? rest

/-- An integer that is not negative; zero may have a minus sign. -/
def nonNegative? (s : String) : Option Nat :=
  match s.toList with
  | '-' :: rest =>
    match digits? rest with
    | some 0 => some 0
    | _ => none
  | _ => unsigned? s

end CommandLine
end CombatTrials
