import VectorBench.Dataset
import VectorBench.Registry

/-!
# Running a benchmark

Every registered engine is built over the corpus and then searched with the queries, one engine
after the other in the order of registration, and the seconds of both phases are taken.  The first
phase that fails ends the run.

A run needs a place for its effects: adapters that build and search, and a stopwatch.  Both live in
a monad of the caller's choice.
-/

namespace VectorBench

/-- An engine behind effects: building yields the way to search what was built. -/
structure Adapter (m : Type → Type) where
  build : VectorSet → m (Except EngineError (VectorSet → UInt64 → m (Except EngineError Hits)))

/-- An engine without effects as an adapter. -/
def Engine.adapter {m : Type → Type} [Pure m] (engine : Engine) : Adapter m where
  build vectors := pure ((engine.build vectors).map fun index queries topK =>
    pure (index.search queries topK))

inductive Phase where
  | build
  | search
  deriving DecidableEq, Repr

def Phase.label : Phase → String
  | build => "build"
  | search => "search"

/-- Why a run yields no record. -/
inductive RunError where
  | invalidConfig (cause : ValidationError)
  | adapterFailure (engine : String) (phase : Phase) (cause : EngineError)
  | invalidRecord (cause : ValidationError)
  | overflow
  deriving DecidableEq

namespace RunError

def message : RunError → String
  | invalidConfig cause => cause.message
  | adapterFailure engine phase cause =>
    "engine '" ++ engine ++ "' failed during " ++ phase.label ++ ": " ++ cause.message
  | invalidRecord cause => "benchmark produced an invalid record: " ++ cause.message
  | overflow => "attempt to multiply with overflow"

end RunError

variable {m : Type → Type} [Monad m]

/-- Builds and searches with one engine.  `lap` yields the seconds since it was last asked. -/
def measure (lap : m Binary64) (dataset : Dataset) (topK : UInt64) (name : String)
    (adapter : Adapter m) : m (Except RunError Measurement) := do
  let _ ← lap
  match ← adapter.build dataset.vectors with
  | .error e => return .error (.adapterFailure name .build e)
  | .ok search =>
    let buildSeconds ← lap
    match ← search dataset.queries topK with
    | .error e => return .error (.adapterFailure name .search e)
    | .ok _ =>
      let searchSeconds ← lap
      return .ok ⟨name, buildSeconds, searchSeconds⟩

/-- Measures engines one after the other, up to the first failure. -/
def measureAll (lap : m Binary64) (dataset : Dataset) (topK : UInt64) :
    List (String × Adapter m) → m (Except RunError (List Measurement))
  | [] => return .ok []
  | (name, adapter) :: rest => do
    match ← measure lap dataset topK name adapter with
    | .error e => return .error e
    | .ok first =>
      match ← measureAll lap dataset topK rest with
      | .error e => return .error e
      | .ok others => return .ok (first :: others)

/-- The record of a run over the dataset of `config`. -/
def runBenchmark (overflow : Overflow) (lap : m Binary64) (config : Config)
    (engines : Registry (Adapter m)) : m (Except RunError Record) := do
  match Dataset.generate overflow config with
  | .error (.invalidConfig e) => return .error (.invalidConfig e)
  | .error .overflow => return .error .overflow
  | .ok dataset =>
    match ← measureAll lap dataset config.topK engines.entries with
    | .error e => return .error e
    | .ok metrics =>
      match Record.ofParts config metrics with
      | .error e => return .error (.invalidRecord e)
      | .ok record => return .ok record

end VectorBench
