import VectorBench.Proofs.Record.Fit

/-!
# The search time of an engine

What a record says of an engine's search time, without a rule for looking it up.  No two measurements
of a record have one name, so that there is at most one search time, and looking it up finds it.

    r.SearchTime e x → r.SearchTime e y → x = y                          (SearchTime.unique)
    r.metric? e = none ↔ e ∉ r.engineNames                               (metric?_eq_none_iff)
    r.metric? e = some m → r.SearchTime e m.searchSeconds                (searchTime_of_metric?)
-/

namespace VectorBench.Record

/-- The record has a measurement of the engine with the given search time. -/
def SearchTime (r : Record) (engine : String) (seconds : Binary64) : Prop :=
  ∃ m ∈ r.metrics, m.engine = engine ∧ m.searchSeconds = seconds

variable {r : Record} {engine : String} {x y : Binary64}

theorem SearchTime.mem_engineNames (h : r.SearchTime engine x) : engine ∈ r.engineNames := by
  obtain ⟨m, hm, he, -⟩ := h
  exact List.mem_map.2 ⟨m, hm, he⟩

theorem exists_searchTime_iff : (∃ x, r.SearchTime engine x) ↔ engine ∈ r.engineNames := by
  constructor
  · rintro ⟨x, hx⟩
    exact hx.mem_engineNames
  · intro h
    obtain ⟨m, hm, he⟩ := List.mem_map.1 h
    exact ⟨m.searchSeconds, m, hm, he, rfl⟩

theorem SearchTime.unique (hx : r.SearchTime engine x) (hy : r.SearchTime engine y) : x = y := by
  obtain ⟨m, hm, hme, rfl⟩ := hx
  obtain ⟨n, hn, hne, rfl⟩ := hy
  have hdistinct : (r.metrics.map (·.engine)).Nodup := (checkParts_eq_ok_iff.1 r.fit).distinct
  rw [List.inj_on_of_nodup_map hdistinct hm hn (hme.trans hne.symm)]

theorem SearchTime.isSeconds (h : r.SearchTime engine x) : IsSeconds x := by
  obtain ⟨m, hm, -, rfl⟩ := h
  exact (checkParts_eq_ok_iff.1 r.fit).search m hm

theorem metric?_eq_none_iff : r.metric? engine = none ↔ engine ∉ r.engineNames := by
  simp [metric?, engineNames, List.find?_eq_none]

theorem searchTime_of_metric? {m : Measurement} (h : r.metric? engine = some m) :
    r.SearchTime engine m.searchSeconds := by
  unfold metric? at h
  have he := List.find?_some h
  exact ⟨m, List.mem_of_find?_eq_some h, eq_of_beq he, rfl⟩

end VectorBench.Record
