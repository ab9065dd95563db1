import VectorBench.CommandLine.ControlSequence

/-!
# Options

A command takes options of the form `--name value` or `--name=value`, each at most once unless it
may be repeated, and nothing else.  An option that is not given may take its value from an
environment variable.

Arguments are read from left to right.  The value of an option is looked at when the next option
comes or the arguments end, so that an argument that nobody knows is reported before a bad value
right in front of it, and so is a value for the help option, which takes none.  Variables come after
all arguments, in the order of the options.
-/

namespace VectorBench.CommandLine

/-- Why an option does not take a value. -/
inductive Refusal where
  /-- The value counts as none. -/
  | noValue
  | reason (text : String)
  deriving DecidableEq, Repr

/-- An option that changes settings `σ`. -/
structure CommandOption (σ : Type) where
  name : String
  environmentName? : Option String
  repeatable : Bool
  set : (value : String) → σ → Except Refusal σ

inductive ArgumentError where
  | unknown (argument : String)
  | missingValue (option : String)
  | repeated (option : String)
  | invalidValue (option value reason : String)
  | missingOptions (options : List String)
  /-- The help option takes no value. -/
  | helpValue (value : String)
  /-- The help text is asked for. -/
  | help
  deriving DecidableEq, Repr

/-- An option with the name of its value: `--top-k <TOP_K>`. -/
def optionText (name : String) : String :=
  let upper := name.toList.map fun c => if c = '-' then '_' else c.toUpper
  "--" ++ name ++ " <" ++ String.ofList upper ++ ">"

namespace ArgumentError

/-- The styled wording of an error, with what it quotes from the arguments as it is. -/
def styled : ArgumentError → String
  | unknown argument => "unexpected argument '" ++ emphasized argument ++ "' found"
  | missingValue option =>
    "a value is required for '" ++ emphasized (optionText option) ++ "' but none was supplied"
  | repeated option =>
    "the argument '" ++ emphasized (optionText option) ++ "' cannot be used multiple times"
  | invalidValue option value reason =>
    "invalid value '" ++ emphasized value ++ "' for '" ++ emphasized (optionText option) ++ "': " ++
      reason
  | missingOptions options =>
    "the following required arguments were not provided:" ++
      String.join (options.map fun name => "\n  " ++ emphasized (optionText name))
  | helpValue value =>
    "unexpected value '" ++ emphasized value ++ "' for '" ++ emphasized "--help" ++
      "' found; no more were expected"
  | help => "help is asked for"

/-- The styled lines that report an error: its wording, and where to find out more. -/
def report (e : ArgumentError) : String :=
  emphasized "error:" ++ " " ++ e.styled ++ "\n\nFor more information, try '" ++
    emphasized "--help" ++ "'.\n"

/-- The report of an error as a message. -/
def message (e : ArgumentError) : String := String.ofList (plainText e.report.toList)

/-- The report of an error as it reaches the error stream. -/
def printed (e : ArgumentError) : String := String.ofList (plainStream e.report.toList)

end ArgumentError

/-! ## Reading arguments -/

variable {σ : Type}

/-- The settings so far and the names of the options that were given. -/
structure Settings (σ : Type) where
  value : σ
  given : List String

/-- An option at the end of the arguments read so far, and its value if that has come. -/
structure Pending (σ : Type) where
  option : CommandOption σ
  value? : Option String

/-- The settings after an option with a value. -/
def Settings.apply (s : Settings σ) (option : CommandOption σ) (value : String) :
    Except ArgumentError (Settings σ) :=
  if s.given.contains option.name && !option.repeatable then .error (.repeated option.name)
  else
    match option.set value s.value with
    | .ok changed => .ok ⟨changed, option.name :: s.given⟩
    | .error .noValue => .error (.missingValue option.name)
    | .error (.reason text) => .error (.invalidValue option.name value text)

/-- The settings after the pending option. -/
def Settings.settle (s : Settings σ) : Option (Pending σ) → Except ArgumentError (Settings σ)
  | none => .ok s
  | some ⟨option, none⟩ => .error (.missingValue option.name)
  | some ⟨option, some value⟩ => s.apply option value

/-- What an argument is. -/
inductive Argument where
  /-- Two dashes: what follows are no options. -/
  | divider
  /-- `--name` or `--name=value`. -/
  | long (name : String) (value? : Option String)
  /-- A dash and a letter. -/
  | short (letter : Char)
  | plain
  deriving DecidableEq, Repr

/-- The kind of an argument; a dash alone is plain. -/
def Argument.ofText (text : String) : Argument :=
  match text.toList with
  | ['-', '-'] => divider
  | '-' :: '-' :: rest =>
    let name := rest.takeWhile (· != '=')
    match rest.dropWhile (· != '=') with
    | [] => long (String.ofList name) none
    | _ :: value => long (String.ofList name) (some (String.ofList value))
  | '-' :: letter :: _ => short letter
  | _ => plain

/-- Reads the arguments of a command with the given options. -/
def readArguments (options : List (CommandOption σ)) :
    Option (Pending σ) → Settings σ → List String → Except ArgumentError (Settings σ)
  | pending, s, [] => s.settle pending
  | pending, s, text :: rest =>
    match Argument.ofText text with
    | .divider =>
      match rest with
      | [] => s.settle pending
      | next :: _ => .error (.unknown next)
    | .long name value? =>
      match options.find? fun option => option.name == name with
      | none =>
        if name == "help" then
          match value? with
          | some value => .error (.helpValue value)
          | none =>
            match s.settle pending with
            | .error e => .error e
            | .ok _ => .error .help
        else .error (.unknown ("--" ++ name))
      | some option =>
        match s.settle pending with
        | .error e => .error e
        | .ok s =>
          match value? with
          | none => readArguments options (some ⟨option, none⟩) s rest
          | some value =>
            match s.apply option value with
            | .error e => .error e
            | .ok s => readArguments options none s rest
    | .short letter =>
      if letter = 'h' then
        match s.settle pending with
        | .error e => .error e
        | .ok _ => .error .help
      else .error (.unknown (String.ofList ['-', letter]))
    | .plain =>
      match pending with
      | some ⟨option, none⟩ => readArguments options (some ⟨option, some text⟩) s rest
      | _ => .error (.unknown text)

/-- Gives every option that was not given the value of its variable, if that is set. -/
def readVariables (environment : String → Option String) :
    List (CommandOption σ) → Settings σ → Except ArgumentError (Settings σ)
  | [], s => .ok s
  | option :: rest, s =>
    if s.given.contains option.name then readVariables environment rest s
    else
      match option.environmentName?.bind environment with
      | none => readVariables environment rest s
      | some value =>
        match s.apply option value with
        | .error e => .error e
        | .ok s => readVariables environment rest s

/-- The settings of a command: `defaults` changed by its arguments and its environment. -/
def readSettings (options : List (CommandOption σ)) (required : List String) (defaults : σ)
    (environment : String → Option String) (arguments : List String) : Except ArgumentError σ :=
  match readArguments options none ⟨defaults, []⟩ arguments with
  | .error e => .error e
  | .ok s =>
    match readVariables environment options s with
    | .error e => .error e
    | .ok s =>
      match required.filter fun name => !s.given.contains name with
      | [] => .ok s.value
      | missing => .error (.missingOptions missing)

/-! ## Kinds of values -/

/-- An option that holds a path, which must not be empty. -/
def pathOption (name : String) (environmentName? : Option String) (set : String → σ → σ) :
    CommandOption σ where
  name := name
  environmentName? := environmentName?
  repeatable := false
  set value s := if value.isEmpty then .error .noValue else .ok (set value s)

end VectorBench.CommandLine
