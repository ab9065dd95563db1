import VectorBench.Engine.Hit

/-!
# Search engines

An engine turns a corpus into an index, and an index ranks the corpus rows for one query.  What
every search checks first stands here once: a hit count of zero is refused before a query set of
another dimension, and a corpus without numbers cannot be indexed.

A `Session` is an engine in use: it holds the index of the latest build, and none after a build that
failed.
-/

namespace VectorBench

/-- Why an engine refuses, or a registry does. -/
inductive EngineError where
  | notBuilt
  | emptyCorpus
  | invalidTopK
  | dimensionMismatch (expected actual : Nat)
  | duplicateEngine (name : String)
  deriving DecidableEq, Repr

namespace EngineError

def message : EngineError → String
  | notBuilt => "search called before build"
  | emptyCorpus => "cannot build an index from an empty corpus"
  | invalidTopK => "top_k must be > 0"
  | dimensionMismatch expected actual =>
    "vector dimension mismatch: expected " ++ toString expected ++ ", got " ++ toString actual
  | duplicateEngine name => "engine '" ++ name ++ "' is already registered"

end EngineError

/-- The hits of every query of a set, in the order of the queries. -/
abbrev Hits := List (List Hit)

/-- A corpus made ready for search: its dimension, and up to so many hits for a query, best first.
-/
structure Index where
  dim : Nat
  nearest : (topK : UInt64) → (query : Vector32) → List Hit

/-- The hits of every query, up to `topK` each. -/
def Index.search (index : Index) (queries : VectorSet) (topK : UInt64) :
    Except EngineError Hits :=
  if topK = 0 then .error .invalidTopK
  else if index.dim ≠ queries.dim then .error (.dimensionMismatch index.dim queries.dim)
  else .ok (queries.rows.map (index.nearest topK))

/-- A way to index a corpus. -/
structure Engine where
  index : VectorSet → Index

/-- The index of a corpus, unless there is nothing to index. -/
def Engine.build (engine : Engine) (vectors : VectorSet) : Except EngineError Index :=
  if vectors.isEmpty then .error .emptyCorpus else .ok (engine.index vectors)

/-! ## Engines in use -/

/-- An engine and the index of its latest build. -/
structure Session where
  engine : Engine
  built : Option Index

namespace Session

/-- An engine that has built nothing yet. -/
def start (engine : Engine) : Session := ⟨engine, none⟩

/-- Builds anew.  A build that fails leaves no index behind. -/
def build (s : Session) (vectors : VectorSet) : Except EngineError Unit × Session :=
  match s.engine.build vectors with
  | .error e => (.error e, { s with built := none })
  | .ok index => (.ok (), { s with built := some index })

/-- Searches the index of the latest build. -/
def search (s : Session) (queries : VectorSet) (topK : UInt64) : Except EngineError Hits :=
  match s.built with
  | none => .error .notBuilt
  | some index => index.search queries topK

end Session

end VectorBench
