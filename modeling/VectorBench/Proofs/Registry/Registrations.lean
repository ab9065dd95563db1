import Mathlib.Data.List.Nodup
import VectorBench.Registry

/-!
# Registrations

A registration that is refused leaves the registry as it was, so a registry can be filled by any
number of registrations, and no name is ever in it twice.

    r.names.Nodup → (r.registerAll offers).names.Nodup                   (nodup_names_registerAll)
-/

namespace VectorBench.Registry

variable {α : Type}

/-- The registry after a registration, whether it was refused or not. -/
def offer (r : Registry α) (name : String) (engine : α) : Registry α :=
  match r.register name engine with
  | .error _ => r
  | .ok grown => grown

/-- The registry after registrations one after the other. -/
def registerAll (r : Registry α) (offers : List (String × α)) : Registry α :=
  offers.foldl (fun r entry => r.offer entry.1 entry.2) r

theorem names_offer (r : Registry α) (name : String) (engine : α) :
    (r.offer name engine).names = if name ∈ r.names then r.names else r.names ++ [name] := by
  unfold offer register
  by_cases h : name ∈ r.names
  · rw [if_pos h, if_pos h]
  · rw [if_neg h, if_neg h]
    exact List.map_append

theorem nodup_names_offer {r : Registry α} (h : r.names.Nodup) (name : String) (engine : α) :
    (r.offer name engine).names.Nodup := by
  rw [names_offer]
  split
  · exact h
  · rename_i hnew
    apply List.Nodup.append h (List.nodup_singleton name)
    intro other hother heq
    rw [List.mem_singleton.1 heq] at hother
    exact hnew hother

/-- However registrations go, no name is registered twice. -/
theorem nodup_names_registerAll {r : Registry α} (h : r.names.Nodup) (offers : List (String × α)) :
    (r.registerAll offers).names.Nodup := by
  induction offers generalizing r with
  | nil => exact h
  | cons entry rest ih => exact ih (nodup_names_offer h entry.1 entry.2)

end VectorBench.Registry
