namespace AgentWire.Cli

/-!
# Arguments of a command line

Options have long names and may have a letter.  The value of an option stands
behind an equals sign or in the next argument.  A command may take free words; the
first one, or two dashes alone, make everything behind them free words too.
-/

/-- Why a command line is refused, or answered at once. -/
inductive UsageFault where
  | displayHelp
  | displayVersion
  | unknownArgument
  | invalidValue
  | valueValidation
  | argumentConflict
  | tooManyValues
  | missingRequiredArgument
  deriving Repr, DecidableEq

namespace UsageFault

/-- The name of a fault. -/
def name : UsageFault → String
  | .displayHelp => "DisplayHelp"
  | .displayVersion => "DisplayVersion"
  | .unknownArgument => "UnknownArgument"
  | .invalidValue => "InvalidValue"
  | .valueValidation => "ValueValidation"
  | .argumentConflict => "ArgumentConflict"
  | .tooManyValues => "TooManyValues"
  | .missingRequiredArgument => "MissingRequiredArgument"

/-- Whether the fault is a request for information. -/
def isRequest : UsageFault → Bool
  | .displayHelp | .displayVersion => true
  | _ => false

end UsageFault

/-- What an option does. -/
inductive OptionKind where
  /-- It has a value, which must pass a check. -/
  | valued (check : String → Except UsageFault Unit)
  /-- It is there or not. -/
  | flag
  /-- It ends the reading at once. -/
  | immediate (fault : UsageFault)

/-- An option that a command knows. -/
structure OptionSpec where
  long : String
  short : Option Char := none
  kind : OptionKind

namespace OptionSpec

/-- The option that asks for help. -/
def help : OptionSpec :=
  ⟨"help", some 'h', .immediate .displayHelp⟩

/-- The option that asks for the version. -/
def version : OptionSpec :=
  ⟨"version", some 'V', .immediate .displayVersion⟩

/-- An option with any value. -/
def text (long : String) (short : Option Char) : OptionSpec :=
  ⟨long, short, .valued fun _ => .ok ()⟩

/-- An option whose value must not be empty. -/
def path (long : String) : OptionSpec :=
  ⟨long, none, .valued fun value => if value.isEmpty then .error .invalidValue else .ok ()⟩

/-- An option whose value must pass a test. -/
def tested (long : String) (test : String → Bool) : OptionSpec :=
  ⟨long, none, .valued fun value => if test value then .ok () else .error .valueValidation⟩

end OptionSpec

/-- What was read so far. -/
structure Arguments where
  values : List (String × String) := []
  flags : List String := []
  /-- The option whose value is due or was just read. -/
  pending : Option (OptionSpec × Option String) := none
  words : List String := []
  /-- Whether everything that follows is a free word. -/
  trailing : Bool := false

namespace Arguments

/-- The value of an option. -/
def value? (arguments : Arguments) (long : String) : Option String :=
  arguments.values.lookup long

/-- Keep the value of an option; an option may be given once. -/
def keep
    (arguments : Arguments)
    (spec : OptionSpec)
    (value : String) :
    Except UsageFault Arguments :=
  if (arguments.value? spec.long).isSome then
    .error .argumentConflict
  else
    match spec.kind with
    | .valued check => do
        check value
        .ok { arguments with values := arguments.values ++ [(spec.long, value)] }
    | _ => .ok arguments

/-- Be done with the option before. -/
def settle (arguments : Arguments) : Except UsageFault Arguments :=
  match arguments.pending with
  | none => .ok arguments
  | some (_, none) => .error .invalidValue
  | some (spec, some value) => { arguments with pending := none }.keep spec value

/-- Take an option that has no value. -/
def takeBare
    (arguments : Arguments)
    (spec : OptionSpec) :
    Except UsageFault Arguments := do
  let arguments ← arguments.settle
  match spec.kind with
  | .immediate fault => .error fault
  | .flag =>
      if arguments.flags.contains spec.long then
        .error .argumentConflict
      else
        .ok { arguments with flags := arguments.flags ++ [spec.long] }
  | .valued _ => .ok { arguments with pending := some (spec, none) }

/-- Take an option with a value behind it in the same argument. -/
def takeAttached
    (arguments : Arguments)
    (spec : OptionSpec)
    (value : String) :
    Except UsageFault Arguments :=
  match spec.kind with
  | .valued _ => do
      let arguments ← arguments.settle
      arguments.keep spec value
  | _ => .error .tooManyValues

/-- Take an argument with a long name. -/
def takeLong
    (specs : List OptionSpec)
    (arguments : Arguments)
    (text : List Char) :
    Except UsageFault Arguments :=
  let long := String.ofList (text.takeWhile (· != '='))
  match specs.find? (·.long == long), text.dropWhile (· != '=') with
  | none, _ => .error .unknownArgument
  | some spec, [] => arguments.takeBare spec
  | some spec, _ :: value => arguments.takeAttached spec (String.ofList value)

/-- Take an argument of letters; the rest of it may be the value of a letter. -/
def takeShort
    (specs : List OptionSpec)
    (arguments : Arguments) :
    List Char → Except UsageFault Arguments
  | [] => .ok arguments
  | letter :: rest =>
      match specs.find? (·.short == some letter) with
      | none => .error .unknownArgument
      | some spec =>
          match spec.kind, rest with
          | .valued _, '=' :: value => arguments.takeAttached spec (String.ofList value)
          | .valued _, [] => arguments.takeBare spec
          | .valued _, value => arguments.takeAttached spec (String.ofList value)
          | _, _ => do
              let arguments ← arguments.takeBare spec
              takeShort specs arguments rest

/-- Take a free word. -/
def takeWord
    (mayHaveWords : Bool)
    (arguments : Arguments)
    (word : String) :
    Except UsageFault Arguments :=
  if mayHaveWords then do
    let arguments ← arguments.settle
    .ok { arguments with words := arguments.words ++ [word], trailing := true }
  else
    .error .unknownArgument

/-- Take one argument. -/
def take
    (specs : List OptionSpec)
    (mayHaveWords : Bool)
    (arguments : Arguments)
    (argument : String) :
    Except UsageFault Arguments :=
  if arguments.trailing then
    arguments.takeWord mayHaveWords argument
  else
    match argument.toList, arguments.pending with
    | ['-', '-'], _ => .ok { arguments with trailing := true }
    | '-' :: '-' :: long, _ => arguments.takeLong specs long
    | '-' :: first :: letters, _ => arguments.takeShort specs (first :: letters)
    | _, some (spec, none) => .ok { arguments with pending := some (spec, some argument) }
    | _, _ => arguments.takeWord mayHaveWords argument

/-- Read a whole command line, without the name of the command. -/
def read
    (specs : List OptionSpec)
    (mayHaveWords : Bool)
    (line : List String) :
    Except UsageFault Arguments := do
  let arguments ← line.foldlM (take specs mayHaveWords) {}
  arguments.settle

end Arguments

end AgentWire.Cli
