import VectorBench.Engine.Flat
import VectorBench.Engine.Graph
import VectorBench.Text

/-!
# Engine registry

Engines under unique names, in the order of registration.  What an engine is does not matter here,
so that a registry may hold engines, or adapters that drive engines.

    r.register name engine = .error (.duplicateEngine name) ↔
      name ∈ r.names                                           (register_eq_error_iff)
-/

namespace VectorBench

/-- Named engines in the order of registration. -/
structure Registry (α : Type) where
  entries : List (String × α)

namespace Registry

variable {α β : Type}

def empty : Registry α := ⟨[]⟩

def names (r : Registry α) : List String := r.entries.map (·.1)

def size (r : Registry α) : Nat := r.entries.length

def isEmpty (r : Registry α) : Bool := r.entries.isEmpty

/-- The registry with one more engine at its end, unless the name is taken. -/
def register (r : Registry α) (name : String) (engine : α) : Except EngineError (Registry α) :=
  if name ∈ r.names then .error (.duplicateEngine name)
  else .ok ⟨r.entries ++ [(name, engine)]⟩

/-- The same names with other contents. -/
def map (g : α → β) (r : Registry α) : Registry β := ⟨r.entries.map fun (name, a) => (name, g a)⟩

/-- How diagnostics show a registry: the names alone. -/
def debugText (r : Registry α) : String :=
  let entry := fun name => "RegisteredEngine \x7b name: " ++ quoted name ++ ", .. \x7d"
  "EngineRegistry \x7b engines: [" ++ ", ".intercalate (r.names.map entry) ++ "] \x7d"

/-! ## Lemmas -/

theorem register_eq_error_iff {r : Registry α} {name : String} {engine : α} {e : EngineError} :
    r.register name engine = .error e ↔ name ∈ r.names ∧ e = .duplicateEngine name := by
  unfold register
  split
  · rename_i h
    simp [h, eq_comm]
  · rename_i h
    simp [h]

end Registry

/-! ## The engines compared by default -/

def graphName : String := "graph_ann"

def flatName : String := "flat_ip"

/-- The names compared by default, in the order of invocation. -/
def defaultNames : List String := [graphName, flatName]

/-- The graph engine, then the exact one. -/
def defaultEngines (tuning : Tuning) (source : CandidateSource) : Registry Engine :=
  ⟨[(graphName, .graph tuning source), (flatName, .flat)]⟩

end VectorBench
