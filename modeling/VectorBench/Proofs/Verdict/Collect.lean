import VectorBench.Proofs.Record.SearchTime
import VectorBench.Proofs.Verdict.Occurrence
import VectorBench.Verdict

/-!
# Collecting search times

What the times that are collected have to do with the names that were asked for so far: there is one
entry for every distinct name, in the order in which the names first occur, with the two search times
on record.  A name adds its entry or, if it was there before, nothing; the first name that a record
lacks ends it.

    Collected baseline current seen found →
      collectTimes baseline current found engines is
        .ok times with Collected baseline current (seen ++ engines) times, or
        .error (.missingEngine e side) with FirstMissing … e side         (collectTimes_cases)
-/

namespace VectorBench

def InBoth (baseline current : Record) (engine : String) : Prop :=
  engine ∈ baseline.engineNames ∧ engine ∈ current.engineNames

/-- The record that lacks the engine: the baseline, or the current one when only that does. -/
def MissingFrom (baseline current : Record) (engine : String) : Side → Prop
  | .baseline => engine ∉ baseline.engineNames
  | .current => engine ∈ baseline.engineNames ∧ engine ∉ current.engineNames

/-- The first name of a list that a record lacks, and which record that is. -/
def FirstMissing (baseline current : Record) (engines : List String) (engine : String)
    (side : Side) : Prop :=
  (∃ before after, engines = before ++ engine :: after ∧
    ∀ e ∈ before, InBoth baseline current e) ∧
  MissingFrom baseline current engine side

/-- The search times collected for the names `seen` so far. -/
structure Collected (baseline current : Record) (seen : List String) (found : List SearchTimes) :
    Prop where
  engines : FirstOccurrences (found.map (·.engine)) seen
  baseline : ∀ t ∈ found, baseline.SearchTime t.engine t.baseline
  current : ∀ t ∈ found, current.SearchTime t.engine t.current

variable {baseline current : Record} {engines seen : List String} {found times : List SearchTimes}
  {engine : String} {side : Side} {e : CheckError}

/-! ## Missing names -/

theorem missingFrom_not_inBoth (h : MissingFrom baseline current engine side) :
    ¬ InBoth baseline current engine := by
  rintro ⟨hbase, hcurr⟩
  cases side with
  | baseline => exact h hbase
  | current => exact h.2 hcurr

theorem MissingFrom.side_unique {side' : Side} (h : MissingFrom baseline current engine side)
    (h' : MissingFrom baseline current engine side') : side = side' := by
  cases side <;> cases side'
  · rfl
  · exact absurd h'.1 h
  · exact absurd h.1 h'
  · rfl

theorem FirstMissing.mem (h : FirstMissing baseline current engines engine side) :
    engine ∈ engines := by
  obtain ⟨⟨before, after, rfl, -⟩, -⟩ := h
  simp

theorem FirstMissing.not_inBoth (h : FirstMissing baseline current engines engine side) :
    ¬ ∀ e ∈ engines, InBoth baseline current e :=
  fun hall => missingFrom_not_inBoth h.2 (hall engine h.mem)

/-- A list of names has at most one first that is missing. -/
theorem FirstMissing.unique {engine' : String} {side' : Side}
    (h : FirstMissing baseline current engines engine side)
    (h' : FirstMissing baseline current engines engine' side') : engine = engine' ∧ side = side' := by
  obtain ⟨⟨before, after, heq, hbefore⟩, hside⟩ := h
  obtain ⟨⟨before', after', heq', hbefore'⟩, hside'⟩ := h'
  have hengine : engine = engine' := by
    rw [heq, List.append_eq_append_iff] at heq'
    rcases heq' with ⟨l, rfl, hl⟩ | ⟨l, rfl, hl⟩
    · cases l with
      | nil => exact (List.cons.inj hl).1
      | cons a l =>
        obtain ⟨rfl, -⟩ := List.cons.inj hl
        exact absurd (hbefore' engine (by simp)) (missingFrom_not_inBoth hside)
    · cases l with
      | nil => exact (List.cons.inj hl).1.symm
      | cons a l =>
        obtain ⟨rfl, -⟩ := List.cons.inj hl
        exact absurd (hbefore engine' (by simp)) (missingFrom_not_inBoth hside')
  subst hengine
  exact ⟨rfl, hside.side_unique hside'⟩

/-! ## One name -/

theorem searchTimes_eq_ok {t : SearchTimes} (h : searchTimes baseline current engine = .ok t) :
    t.engine = engine ∧ baseline.SearchTime engine t.baseline ∧
      current.SearchTime engine t.current := by
  unfold searchTimes at h
  cases hbase : baseline.metric? engine with
  | none => simp [hbase] at h
  | some base =>
    cases hcurr : current.metric? engine with
    | none => simp [hbase, hcurr] at h
    | some now =>
      simp only [hbase, hcurr, Except.ok.injEq] at h
      subst h
      exact ⟨rfl, Record.searchTime_of_metric? hbase, Record.searchTime_of_metric? hcurr⟩

theorem searchTimes_eq_error (h : searchTimes baseline current engine = .error e) :
    ∃ side, MissingFrom baseline current engine side ∧ e = .missingEngine engine side := by
  unfold searchTimes at h
  cases hbase : baseline.metric? engine with
  | none =>
    simp only [hbase, Except.error.injEq] at h
    exact ⟨.baseline, Record.metric?_eq_none_iff.1 hbase, h.symm⟩
  | some base =>
    cases hcurr : current.metric? engine with
    | none =>
      simp only [hbase, hcurr, Except.error.injEq] at h
      exact ⟨.current, ⟨(Record.searchTime_of_metric? hbase).mem_engineNames,
        Record.metric?_eq_none_iff.1 hcurr⟩, h.symm⟩
    | some now => simp [hbase, hcurr] at h

namespace Collected

theorem nil : Collected baseline current [] [] :=
  ⟨.nil, by simp, by simp⟩

theorem inBoth (h : Collected baseline current seen found) (he : engine ∈ seen) :
    InBoth baseline current engine := by
  obtain ⟨t, ht, rfl⟩ := List.mem_map.1 ((h.engines.mem_iff engine).2 he)
  exact ⟨(h.baseline t ht).mem_engineNames, (h.current t ht).mem_engineNames⟩

/-- A name that was seen before is passed over. -/
theorem again (h : Collected baseline current seen found)
    (he : (found.any fun t => t.engine == engine) = true) :
    Collected baseline current (seen ++ [engine]) found := by
  refine ⟨h.engines.again ?_, h.baseline, h.current⟩
  obtain ⟨t, ht, hte⟩ := List.any_eq_true.1 he
  exact (h.engines.mem_iff engine).1 (List.mem_map.2 ⟨t, ht, eq_of_beq hte⟩)

/-- A new name that both records have adds its times at the end. -/
theorem first {t : SearchTimes} (h : Collected baseline current seen found)
    (he : (found.any fun t => t.engine == engine) = false)
    (ht : searchTimes baseline current engine = .ok t) :
    Collected baseline current (seen ++ [engine]) (found ++ [t]) := by
  obtain ⟨hengine, hbase, hcurr⟩ := searchTimes_eq_ok ht
  have hnew : engine ∉ seen := by
    rw [← h.engines.mem_iff]
    intro hmem
    obtain ⟨t', ht', rfl⟩ := List.mem_map.1 hmem
    exact absurd (List.any_eq_false.1 he t' ht') (by simp)
  refine ⟨?_, ?_, ?_⟩
  · rw [List.map_append, List.map_singleton, hengine]
    exact h.engines.first hnew
  · intro t' ht'
    rcases List.mem_append.1 ht' with hold | hnew
    · exact h.baseline t' hold
    · rw [List.mem_singleton.1 hnew, hengine]
      exact hbase
  · intro t' ht'
    rcases List.mem_append.1 ht' with hold | hnew
    · exact h.current t' hold
    · rw [List.mem_singleton.1 hnew, hengine]
      exact hcurr

/-- A name that a record lacks is the first one. -/
theorem firstMissing (h : Collected baseline current seen found)
    (hside : MissingFrom baseline current engine side) (after : List String) :
    FirstMissing baseline current (seen ++ engine :: after) engine side :=
  ⟨⟨seen, after, rfl, fun _ he => h.inBoth he⟩, hside⟩

/-! ## All names -/

/-- Going through all names either collects the times of all of them or stops at the first that is
missing. -/
theorem collectTimes_cases (h : Collected baseline current seen found) (engines : List String) :
    (∃ times, collectTimes baseline current found engines = .ok times ∧
      Collected baseline current (seen ++ engines) times) ∨
    ∃ engine side, collectTimes baseline current found engines = .error (.missingEngine engine side) ∧
      FirstMissing baseline current (seen ++ engines) engine side := by
  induction engines generalizing seen found with
  | nil =>
    left
    rw [List.append_nil]
    exact ⟨found, rfl, h⟩
  | cons engine rest ih =>
    rw [collectTimes]
    cases hany : found.any fun t => t.engine == engine with
    | true =>
      rw [if_pos rfl, List.append_cons]
      exact ih (h.again hany)
    | false =>
      rw [if_neg Bool.false_ne_true]
      cases ht : searchTimes baseline current engine with
      | error e =>
        obtain ⟨side, hside, rfl⟩ := searchTimes_eq_error ht
        exact Or.inr ⟨engine, side, rfl, h.firstMissing hside rest⟩
      | ok t =>
        rw [List.append_cons]
        exact ih (h.first hany ht)

end Collected

end VectorBench
