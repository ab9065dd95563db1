import VectorBench.CommandLine.Literal
import VectorBench.CommandLine.Options
import VectorBench.CommandLine.Terminal
import VectorBench.Registry

/-!
# The command `check-ann-regression`

Compares the search times of two stored records.  The command ends with status 0 when no engine has
become slower than the limit allows, with status 1 when one has, and with status 2 when there is
nothing to compare.
-/

namespace VectorBench.CommandLine

/-- What can be set on the command line. -/
structure CheckArguments where
  baseline : String
  current : String
  limit : Binary64
  engines : List String
  deriving DecidableEq

namespace CheckArguments

/-- Both paths must be given. -/
def default : CheckArguments := ⟨"", "", defaultLimit, []⟩

def limitOption : CommandOption CheckArguments where
  name := "max-regression-ratio"
  environmentName? := some "ANN_BENCH_MAX_REGRESSION_RATIO"
  repeatable := false
  set text a :=
    match readDecimal text with
    | .error fault => .error (.reason fault.text)
    | .ok limit => .ok { a with limit }

/-- The option for the engines: names with commas between them, more with every use. -/
def enginesOption : CommandOption CheckArguments where
  name := "engines"
  environmentName? := none
  repeatable := true
  set text a :=
    .ok { a with engines := a.engines ++ (text.toList.splitOn ',').map String.ofList }

def options : List (CommandOption CheckArguments) := [
  pathOption "baseline" none fun path a => { a with baseline := path },
  pathOption "current" none fun path a => { a with current := path },
  limitOption,
  enginesOption]

def read (environment : String → Option String) (arguments : List String) :
    Except ArgumentError CheckArguments :=
  readSettings options ["baseline", "current"] default environment arguments

/-- The engines to compare: the default ones when none are given. -/
def requested (a : CheckArguments) : List String :=
  if a.engines.isEmpty then defaultNames else a.engines

end CheckArguments

def checkHelp : String :=
  "Compares search latency in a current result record against a baseline. Exits 1 when any " ++
    "engine slowed down past the ratio limit\n\n" ++
    "Usage: check-ann-regression [OPTIONS] --baseline <BASELINE> --current <CURRENT>\n\nOptions:" ++
    String.join (CheckArguments.options.map fun option => "\n      " ++ optionText option.name)

/-- Prints a verdict and ends as it says. -/
def announce (v : Verdict) : Command ExitStatus := do
  match ← printLines write v.lines with
  | .error e =>
    fail .misuse ("Regression check failed: unable to write report (" ++ e.message ++ ").")
  | .ok _ => return if v.passed then .success else .failure

/-- Loads both records and compares the given engines. -/
def checkFiles (baseline current : String) (engines : List String) (limit : Binary64) :
    Command ExitStatus := do
  match ← ofFiles (loadRecord baseline) with
  | .error e => fail .misuse ("Unable to load baseline " ++ baseline ++ ": " ++ e.message)
  | .ok base =>
    match ← ofFiles (loadRecord current) with
    | .error e => fail .misuse ("Unable to load current " ++ current ++ ": " ++ e.message)
    | .ok now =>
      match checkRegression base now engines limit with
      | .error e => fail .misuse ("Regression check failed: " ++ e.message)
      | .ok verdict => announce verdict

/-- The command with its arguments and its environment. -/
def checkAnnRegression (environment : String → Option String) (arguments : List String) :
    Command ExitStatus :=
  match CheckArguments.read environment arguments with
  | .error .help => do
    say .out checkHelp
    return .success
  | .error e => refuse e
  | .ok a => checkFiles a.baseline a.current a.requested a.limit

end VectorBench.CommandLine
