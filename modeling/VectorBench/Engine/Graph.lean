import VectorBench.Engine.Basic
import VectorBench.Binary.Log

/-!
# Graph search

The engine that asks a neighbour graph for candidates and ranks what the graph supplies.  A graph
measures by distance, `1 - a·b` and never below zero, and the score of a candidate is one less its
distance.  How a graph finds candidates is a parameter: a `CandidateSource` is told the corpus, the
query, how many hits are wanted and how many candidates it may look at, and names rows with their
distances.  The source in use looks at every row.
-/

namespace VectorBench

/-! ## Tuning -/

/-- How a graph is built and searched. -/
structure Tuning where
  /-- Links kept per row. -/
  maxConnections : UInt64
  /-- Candidates looked at for a new row. -/
  constructionExpansion : UInt64
  /-- Candidates looked at in a search, per hit that is wanted. -/
  factor : UInt64
  /-- The fewest candidates looked at. -/
  least : UInt64
  /-- The most candidates looked at. -/
  most : UInt64
  deriving DecidableEq, Repr, Inhabited

/-- The product of two words, or the largest word when it does not fit. -/
def mulSaturating (a b : UInt64) : UInt64 :=
  if a.toNat * b.toNat < UInt64.size then a * b else 0xffffffffffffffff

namespace Tuning

def default : Tuning := ⟨16, 100, 12, 64, 4096⟩

/-- The most links per row that a graph can keep. -/
def maxLinks : UInt64 := 256

/-- How many candidates a search may look at: `topK * factor` between `least` and `most`, but never
fewer than `topK`.  Zero counts as one for `factor` and `least`, and `most` is no less than
`least`. -/
def searchBudget (t : Tuning) (topK : UInt64) : UInt64 :=
  let low := max t.least 1
  let high := max t.most low
  max topK (min (max (mulSaturating topK (max t.factor 1)) low) high)

end Tuning

/-- The most layers that a graph has. -/
def maxLayers : Nat := 16

/-- The number of layers of a graph: the natural logarithm of its size, rounded up, at least one. -/
def layerCount (nodes : UInt64) : Nat :=
  let log := (Binary.ofNat .double nodes.toNat).log
  if log.isFinite then min (max log.ceilInt.toNat 1) maxLayers else 1

/-! ## Distance -/

def one32 : Binary32 := .ofBits .single 0x3f800000

/-- `1 - a·b`, but never below zero. -/
def innerProductDistance (a b : Vector32) : Binary32 :=
  Binary.max (one32 - innerProduct a b) (.zero false)

def scoreOfDistance (distance : Binary32) : Binary32 := one32 - distance

/-! ## Candidates -/

/-- What a graph supplies: rows of the corpus with their distances from the query. -/
def CandidateSource : Type :=
  (tuning : Tuning) → (rows : List Vector32) → (query : Vector32) → (topK budget : UInt64) →
    List (Nat × Binary32)

/-- Every row with its distance. -/
def CandidateSource.exhaustive : CandidateSource := fun _ rows query _ _ =>
  rows.mapIdx fun id row => (id, innerProductDistance query row)

/-- The candidates ranked by score, the best `limit` of them. -/
def rankCandidates (limit : Nat) (candidates : List (Nat × Binary32)) : List Hit :=
  (Hit.ranked (candidates.map fun (id, distance) => ⟨id, scoreOfDistance distance⟩)).take limit

/-- The engine that ranks the candidates of a graph. -/
def Engine.graph (tuning : Tuning) (source : CandidateSource) : Engine where
  index vectors :=
    let rows := vectors.rows
    ⟨vectors.dim, fun topK query =>
      rankCandidates topK.toNat (source tuning rows query topK (tuning.searchBudget topK))⟩

end VectorBench
