/-!
# Benchmark configuration

The shape and the seed of a benchmark's dataset.  A configuration may hold any 64-bit counts; it is
fit for use when none of the four counts is zero, and the first zero in the order of declaration is
what a refusal names.
-/

namespace VectorBench

/-- Dataset shape, query depth and seed of one benchmark. -/
structure Config where
  samples : UInt64
  dims : UInt64
  queries : UInt64
  topK : UInt64
  seed : UInt64
  deriving DecidableEq, Repr, Inhabited

/-- The counts that must not be zero. -/
inductive Count where
  | samples
  | dims
  | queries
  | topK
  deriving DecidableEq, Repr

namespace Count

/-- The counts in the order in which they are checked. -/
def all : List Count := [samples, dims, queries, topK]

def label : Count → String
  | samples => "sample_count"
  | dims => "dimensionality"
  | queries => "query_count"
  | topK => "top_k"

def of (config : Config) : Count → UInt64
  | samples => config.samples
  | dims => config.dims
  | queries => config.queries
  | topK => config.topK

end Count

namespace Config

/-- What a benchmark uses when nothing else is asked for. -/
def default : Config := ⟨10000, 128, 100, 10, 42⟩

def zeroCount? (config : Config) : Option Count :=
  Count.all.find? fun count => count.of config == 0

end Config

end VectorBench
