import VectorBench.Engine.Basic

/-!
# Exact search

Every query is scored against every corpus row.  The best rows so far are kept in a list of bounded
length, weakest first: a new hit finds its place in a list that is not full, and in a full one it
replaces the weakest only if it is better.
-/

namespace VectorBench

namespace Keepers

/-- A list from the weakest to the best with one more hit in its place. -/
def insert (hit : Hit) : List Hit → List Hit
  | [] => [hit]
  | kept :: rest => if hit.better kept then kept :: insert hit rest else hit :: kept :: rest

/-- The keepers after one more hit, at most `limit` of them. -/
def offer (limit : Nat) (keepers : List Hit) (hit : Hit) : List Hit :=
  if keepers.length < limit then insert hit keepers
  else
    match keepers with
    | [] => []
    | weakest :: rest => if hit.better weakest then insert hit rest else keepers

end Keepers

def scoredRows (rows : List Vector32) (query : Vector32) : List Hit :=
  rows.mapIdx fun id row => ⟨id, innerProduct query row⟩

/-- The best `limit` hits for a query, best first. -/
def exactNearest (rows : List Vector32) (limit : Nat) (query : Vector32) : List Hit :=
  ((scoredRows rows query).foldl (Keepers.offer limit) []).reverse

/-- The engine that compares a query with every row. -/
def Engine.flat : Engine where
  index vectors :=
    let rows := vectors.rows
    ⟨vectors.dim, fun topK query => exactNearest rows topK.toNat query⟩

end VectorBench
