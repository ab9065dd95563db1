import VectorBench.Benchmark
import VectorBench.CommandLine.Literal
import VectorBench.CommandLine.Options
import VectorBench.CommandLine.Terminal

/-!
# The command `ann-benchmark`

Runs the default engines over the dataset of a configuration, prints what they took, and saves the
record and its chart.  The command ends with status 2 when its arguments do not make sense, and with
status 1 when the run fails or something cannot be written.  A program that stops at the counts of
its dataset has a status of its own.
-/

namespace VectorBench.CommandLine

/-- What can be set on the command line. -/
structure BenchmarkArguments where
  samples : UInt64
  dims : UInt64
  queries : UInt64
  topK : UInt64
  seed : UInt64
  jsonOutput : String
  chartOutput : String
  maxConnections : Option UInt64
  constructionExpansion : Option UInt64
  factor : Option UInt64
  least : Option UInt64
  most : Option UInt64
  deriving DecidableEq, Repr

namespace BenchmarkArguments

def default : BenchmarkArguments where
  samples := Config.default.samples
  dims := Config.default.dims
  queries := Config.default.queries
  topK := Config.default.topK
  seed := Config.default.seed
  jsonOutput := "benchmarks/results/ann_latest.json"
  chartOutput := "benchmarks/results/ann_benchmark_results.svg"
  maxConnections := none
  constructionExpansion := none
  factor := none
  least := none
  most := none

/-- A positive whole number, or why a text is none. -/
def readPositive (text : String) : Except String UInt64 :=
  match readWhole text with
  | .error _ => .error ("invalid value '" ++ text ++ "'")
  | .ok value => if value = 0 then .error "value must be > 0" else .ok value

def positiveOption (name environmentName : String)
    (set : UInt64 → BenchmarkArguments → BenchmarkArguments) :
    CommandOption BenchmarkArguments where
  name := name
  environmentName? := some environmentName
  repeatable := false
  set text a :=
    match readPositive text with
    | .error reason => .error (.reason reason)
    | .ok value => .ok (set value a)

/-- The option for the seed, which may be zero. -/
def seedOption : CommandOption BenchmarkArguments where
  name := "seed"
  environmentName? := some "ANN_BENCH_SEED"
  repeatable := false
  set text a :=
    match readWhole text with
    | .error fault => .error (.reason fault.text)
    | .ok seed => .ok { a with seed }

/-- The options of the command in the order in which their variables are looked at. -/
def options : List (CommandOption BenchmarkArguments) := [
  positiveOption "n-samples" "ANN_BENCH_N_SAMPLES" fun value a => { a with samples := value },
  positiveOption "n-dims" "ANN_BENCH_N_DIMS" fun value a => { a with dims := value },
  positiveOption "n-queries" "ANN_BENCH_N_QUERIES" fun value a => { a with queries := value },
  positiveOption "top-k" "ANN_BENCH_TOP_K" fun value a => { a with topK := value },
  seedOption,
  pathOption "json-output" "ANN_BENCH_JSON_OUTPUT" fun path a => { a with jsonOutput := path },
  pathOption "chart-output" "ANN_BENCH_CHART_OUTPUT" fun path a => { a with chartOutput := path },
  positiveOption "ann-max-connections" "ANN_BENCH_ANN_MAX_CONNECTIONS"
    fun value a => { a with maxConnections := some value },
  positiveOption "ann-construction-expansion" "ANN_BENCH_ANN_CONSTRUCTION_EXPANSION"
    fun value a => { a with constructionExpansion := some value },
  positiveOption "ann-search-expansion-factor" "ANN_BENCH_ANN_SEARCH_EXPANSION_FACTOR"
    fun value a => { a with factor := some value },
  positiveOption "ann-search-expansion-min" "ANN_BENCH_ANN_SEARCH_EXPANSION_MIN"
    fun value a => { a with least := some value },
  positiveOption "ann-search-expansion-max" "ANN_BENCH_ANN_SEARCH_EXPANSION_MAX"
    fun value a => { a with most := some value }]

def read (environment : String → Option String) (arguments : List String) :
    Except ArgumentError BenchmarkArguments :=
  readSettings options [] default environment arguments

def config (a : BenchmarkArguments) : Except ValidationError Config :=
  let config : Config := ⟨a.samples, a.dims, a.queries, a.topK, a.seed⟩
  config.check.map fun _ => config

/-- What is wrong with bounds that leave no room between them. -/
def tuningFault : String := "--ann-search-expansion-max must be >= --ann-search-expansion-min"

/-- The tuning that the arguments ask for, defaults filled in. -/
def tuning (a : BenchmarkArguments) : Except String Tuning :=
  let tuning : Tuning := {
    maxConnections := a.maxConnections.getD Tuning.default.maxConnections
    constructionExpansion := a.constructionExpansion.getD Tuning.default.constructionExpansion
    factor := a.factor.getD Tuning.default.factor
    least := a.least.getD Tuning.default.least
    most := a.most.getD Tuning.default.most }
  if tuning.most < tuning.least then .error tuningFault else .ok tuning

end BenchmarkArguments

def benchmarkHelp : String :=
  "Times index build and top-k search for every engine on a synthetic corpus, then writes the " ++
    "result record and a search-time bar chart\n\nUsage: ann-benchmark [OPTIONS]\n\nOptions:" ++
    String.join (BenchmarkArguments.options.map fun option => "\n      " ++ optionText option.name)

/-- Prints the record of a run and saves it and its chart. -/
def publish (r : Record) (jsonOutput chartOutput : String) : Command ExitStatus := do
  let problem := fun (what reason : String) =>
    fail .failure ("Benchmark failed: unable to " ++ what ++ " (" ++ reason ++ ").")
  match ← printLines write r.summaryLines with
  | .error e => problem "print summary" e.message
  | .ok _ =>
    match ← ofFiles (saveRecord r jsonOutput) with
    | .error e => problem "write result record" (StoreError.io e).message
    | .ok _ =>
      say .out ("Saved results to " ++ jsonOutput)
      match ← ofFiles (saveChart r chartOutput) with
      | .error e => problem "write chart" (StoreError.io e).message
      | .ok _ =>
        say .out ("Saved chart to " ++ chartOutput)
        return .success

/-- Whether a graph that has something to link is asked to keep more links than it can.  A program
that stops at the counts of its dataset does not get to the graph. -/
def tooManyLinks (overflow : Overflow) (config : Config) (tuning : Tuning) : Bool :=
  Tuning.maxLinks < tuning.maxConnections &&
    (overflow.count? config.samples config.dims).any (· != 0) &&
    (overflow.count? config.queries config.dims).isSome

/-- Runs the benchmark over the default engines, then publishes its record.  The graph comes first,
and when it cannot be built at all nothing else is done. -/
def benchmark (overflow : Overflow) (source : CandidateSource) (config : Config) (tuning : Tuning)
    (jsonOutput chartOutput : String) : Command ExitStatus := do
  if tooManyLinks overflow config tuning then
    say .out "error max_nb_connection must be less equal than 256"
    return .failure
  match ← runBenchmark overflow lap config ((defaultEngines tuning source).map Engine.adapter) with
  | .error .overflow => fail .stopped RunError.overflow.message
  | .error e => fail .failure ("Benchmark failed: " ++ e.message)
  | .ok record => publish record jsonOutput chartOutput

/-- The command with its arguments and its environment. -/
def annBenchmark (overflow : Overflow) (source : CandidateSource)
    (environment : String → Option String) (arguments : List String) : Command ExitStatus :=
  match BenchmarkArguments.read environment arguments with
  | .error .help => do
    say .out benchmarkHelp
    return .success
  | .error e => refuse e
  | .ok a =>
    match a.config, a.tuning with
    | .error e, _ => fail .misuse e.message
    | .ok _, .error e => fail .misuse e
    | .ok config, .ok tuning =>
      benchmark overflow source config tuning a.jsonOutput a.chartOutput

end VectorBench.CommandLine
