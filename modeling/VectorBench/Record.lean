import VectorBench.Config
import VectorBench.Decimal.Style
import VectorBench.Text

/-!
# Benchmark records

The outcome of a benchmark: its configuration and, for every engine in the order of invocation, the
seconds that building and searching took.  A `Record` is fit by its type; `Record.ofParts` builds
one or says what is wrong first, in the order configuration, then measurement by measurement its
name, its durations and whether its name was there before.

    Record.ofParts config metrics = .ok r →
      r.config = config ∧ r.metrics = metrics                  (ofParts_eq_ok)
    Record.ofParts r.config r.metrics = .ok r                  (ofParts_self)
-/

namespace VectorBench

/-- What one engine took. -/
structure Measurement where
  engine : String
  buildSeconds : Binary64
  searchSeconds : Binary64
  deriving DecidableEq

inductive Duration where
  | build
  | search
  deriving DecidableEq, Repr

namespace Duration

def label : Duration → String
  | build => "build_seconds"
  | search => "search_seconds"

def of (m : Measurement) : Duration → Binary64
  | build => m.buildSeconds
  | search => m.searchSeconds

end Duration

/-! ## What may be wrong -/

inductive ValidationError where
  | zeroCount (count : Count)
  | blankEngine
  | duplicateEngine (engine : String)
  | invalidDuration (engine : String) (duration : Duration) (value : Binary64)
  deriving DecidableEq

namespace ValidationError

def message : ValidationError → String
  | zeroCount count => "invalid benchmark config: " ++ count.label ++ " must be > 0"
  | blankEngine => "invalid benchmark config: engine name cannot be empty"
  | duplicateEngine engine => "duplicate engine name '" ++ engine ++ "'"
  | invalidDuration engine duration value =>
    "engine '" ++ engine ++ "' has invalid " ++ duration.label ++ " value " ++ value.messageText

end ValidationError

/-- Refuses a configuration with a zero count. -/
def Config.check (config : Config) : Except ValidationError Unit :=
  match config.zeroCount? with
  | some count => .error (.zeroCount count)
  | none => .ok ()

/-- A duration is finite and not below zero; a negative zero is not below zero. -/
def isDuration (x : Binary64) : Bool := x.isFinite && !x.lt (.zero false)

def Measurement.badDuration? (m : Measurement) : Option Duration :=
  [Duration.build, Duration.search].find? fun duration => !isDuration (duration.of m)

/-- Refuses a blank name, then a bad duration. -/
def Measurement.check (m : Measurement) : Except ValidationError Unit :=
  if isBlank m.engine then .error .blankEngine
  else
    match m.badDuration? with
    | some duration => .error (.invalidDuration m.engine duration (duration.of m))
    | none => .ok ()

/-- Refuses the first bad measurement, or the first whose name is among the ones `seen` before. -/
def checkMeasurements (seen : List String) : List Measurement → Except ValidationError Unit
  | [] => .ok ()
  | m :: rest =>
    match m.check with
    | .error e => .error e
    | .ok _ =>
      if m.engine ∈ seen then .error (.duplicateEngine m.engine)
      else checkMeasurements (m.engine :: seen) rest

/-- Refuses parts that do not make a record. -/
def checkParts (config : Config) (metrics : List Measurement) : Except ValidationError Unit :=
  match config.check with
  | .error e => .error e
  | .ok _ => checkMeasurements [] metrics

/-! ## Records -/

/-- A configuration and measurements in which nothing is wrong. -/
structure Record where
  config : Config
  metrics : List Measurement
  fit : checkParts config metrics = .ok ()
  deriving DecidableEq

namespace Record

/-- The record of the given parts, or what is wrong with them. -/
def ofParts (config : Config) (metrics : List Measurement) : Except ValidationError Record :=
  match h : checkParts config metrics with
  | .error e => .error e
  | .ok () => .ok ⟨config, metrics, h⟩

def metric? (r : Record) (engine : String) : Option Measurement :=
  r.metrics.find? fun m => m.engine == engine

/-- The engines in the order of invocation. -/
def engineNames (r : Record) : List String := r.metrics.map (·.engine)

/-- The search time of every engine in the order of invocation. -/
def searchSeries (r : Record) : List (String × Binary64) :=
  r.metrics.map fun m => (m.engine, m.searchSeconds)

/-! ## Lemmas -/

theorem ofParts_eq_ok {config : Config} {metrics : List Measurement} {r : Record}
    (h : ofParts config metrics = .ok r) : r.config = config ∧ r.metrics = metrics := by
  unfold ofParts at h
  split at h
  · cases h
  · cases h
    exact ⟨rfl, rfl⟩

theorem ofParts_self (r : Record) : ofParts r.config r.metrics = .ok r := by
  unfold ofParts
  split
  · rename_i e he
    rw [r.fit] at he
    cases he
  · rfl

end Record

end VectorBench
