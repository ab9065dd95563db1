import VectorBench.Proofs.CommandLine.Measuring
import VectorBench.Proofs.Store.Succession
import VectorBench.Proofs.Verdict.Outcome

/-!
# Two runs and their check

The default workflow from end to end.  Two configurations are measured over the default engines, both
records are saved and loaded again, and the check of the default names compares them.  Nothing on the
way can go wrong but the saves: the runs yield records, these come back as they were, and the names
that are checked by default are those of the engines that are measured by default, so that no engine
is missing.

    (defaultTimes w w').map (·.engine) = defaultNames
    v.comparisons = (defaultTimes w w').map (SearchTimes.compare limit)          (default_workflow)
-/

namespace VectorBench

/-! ## Two files -/

/-- Plain paths of two files, neither of which is beside the other. -/
structure Path.Apart (path other : String) : Prop where
  plain : Path.Plain path
  plain_other : Path.Plain other
  ne : path ≠ other
  not_beside : temporaryPath path ≠ other
  other_not_beside : temporaryPath other ≠ path

theorem Path.Apart.symm {path other : String} (h : Path.Apart path other) :
    Path.Apart other path :=
  ⟨h.plain_other, h.plain, h.ne.symm, h.other_not_beside, h.not_beside⟩

/-- Two records that were saved apart are both loaded as they were. -/
theorem loadRecord_pair {path other : String} {r s : Record} {entries : List (String × Node)}
    {after : Node} (hpaths : Path.Apart path other)
    (h : (saveEach [(path, r), (other, s)]).run (.directory entries) = (.ok (), after)) :
    (loadRecord path).run after = (.ok r, after) ∧
      (loadRecord other).run after = (.ok s, after) := by
  have hplace : Path.location path ≠ Path.location other := fun he =>
    hpaths.ne (hpaths.plain.eq_of_location hpaths.plain_other he)
  have hbeside : Path.location path ≠ Path.location (temporaryPath other) := fun he =>
    hpaths.other_not_beside (hpaths.plain.eq_of_location hpaths.plain_other.temporaryPath he).symm
  have hlater : ∀ save ∈ [(other, s)], ".." ∉ Path.pieces save.1 ∧
      Path.location path ≠ Path.location save.1 ∧
        Path.location path ≠ Path.location (temporaryPath save.1) := by
    rw [List.forall_mem_singleton]
    exact ⟨hpaths.plain_other.dots, hplace, hbeside⟩
  have hfirst : (saveEach ([] ++ (path, r) :: [(other, s)])).run (.directory entries) =
      (.ok (), after) := h
  have hlast : (saveEach ([(path, r)] ++ (other, s) :: [])).run (.directory entries) =
      (.ok (), after) := h
  exact ⟨loadRecord_of_read (saveEach_read rfl hpaths.plain.dots hlater hfirst),
    loadRecord_of_read (saveEach_read rfl hpaths.plain_other.dots (List.forall_mem_nil _) hlast)⟩

namespace CommandLine

/-! ## Two runs -/

/-- The search times that runs over the default engines measure on two worlds: for each engine the
last of its three readings of the stopwatch. -/
def defaultTimes (w w' : World) : List SearchTimes :=
  [⟨graphName, w.laps (w.lapsRead + 2), w'.laps (w'.lapsRead + 2)⟩,
    ⟨flatName, w.laps (w.lapsRead + 5), w'.laps (w'.lapsRead + 5)⟩]

/-- What a run over the default engines leaves in its record. -/
theorem searchTime_of_metrics {w : World} {record : Record}
    (h : record.metrics = [⟨graphName, w.laps (w.lapsRead + 1), w.laps (w.lapsRead + 2)⟩,
      ⟨flatName, w.laps (w.lapsRead + 4), w.laps (w.lapsRead + 5)⟩]) :
    record.SearchTime graphName (w.laps (w.lapsRead + 2)) ∧
      record.SearchTime flatName (w.laps (w.lapsRead + 5)) := by
  constructor
  · exact ⟨⟨graphName, w.laps (w.lapsRead + 1), w.laps (w.lapsRead + 2)⟩, by simp [h], rfl, rfl⟩
  · exact ⟨⟨flatName, w.laps (w.lapsRead + 4), w.laps (w.lapsRead + 5)⟩, by simp [h], rfl, rfl⟩

/-- The names that are checked by default are those of the default engines. -/
theorem map_engine_defaultTimes (w w' : World) :
    (defaultTimes w w').map (·.engine) = defaultNames := rfl

/-- Two runs over the default engines yield records, and however these are saved apart, they are
loaded again, and the default check of one against the other compares the graph engine and then the
exact one by the search times that were measured. -/
theorem default_workflow {config config' : Config} {w w' : World}
    (hcheck : config.check = .ok ()) (hcheck' : config'.check = .ok ())
    (hcount : config.Countable) (hcount' : config'.Countable)
    (hlaps : ∀ n, IsSeconds (w.laps n)) (hlaps' : ∀ n, IsSeconds (w'.laps n))
    (overflow : Overflow) (tuning tuning' : Tuning) (source source' : CandidateSource) :
    ∃ record record',
      (runOn (runBenchmark overflow lap config
        ((defaultEngines tuning source).map Engine.adapter)) w).1 = .ok record ∧
      (runOn (runBenchmark overflow lap config'
        ((defaultEngines tuning' source').map Engine.adapter)) w').1 = .ok record' ∧
      ∀ path path' entries saves after, Path.Apart path path' →
        saves = [(path, record), (path', record')] ∨ saves = [(path', record'), (path, record)] →
        (saveEach saves).run (.directory entries) = (.ok (), after) →
        (loadRecord path).run after = (.ok record, after) ∧
          (loadRecord path').run after = (.ok record', after) ∧
          ∀ limit, limit.isFinite = true → limit.isPositive = true →
            ∃ v, checkRegression record record' defaultNames limit = .ok v ∧
              v.comparisons = (defaultTimes w w').map (SearchTimes.compare limit) := by
  obtain ⟨record, hrun, -, hmetrics⟩ := runOn_default hcheck hcount overflow w hlaps tuning source
  obtain ⟨record', hrun', -, hmetrics'⟩ :=
    runOn_default hcheck' hcount' overflow w' hlaps' tuning' source'
  refine ⟨record, record', congrArg Prod.fst hrun, congrArg Prod.fst hrun', ?_⟩
  intro path path' entries saves after hpaths horder hsaves
  have hloaded : (loadRecord path).run after = (.ok record, after) ∧
      (loadRecord path').run after = (.ok record', after) := by
    rcases horder with rfl | rfl
    · exact loadRecord_pair hpaths hsaves
    · exact (loadRecord_pair hpaths.symm hsaves).symm
  refine ⟨hloaded.1, hloaded.2, fun limit hfinite hpos => ?_⟩
  obtain ⟨hgraph, hflat⟩ := searchTime_of_metrics hmetrics
  obtain ⟨hgraph', hflat'⟩ := searchTime_of_metrics hmetrics'
  have hdistinct : ((defaultTimes w w').map (·.engine)).Nodup := by
    rw [map_engine_defaultTimes]
    decide
  have hbase : ∀ t ∈ defaultTimes w w', record.SearchTime t.engine t.baseline := by
    rw [defaultTimes, List.forall_mem_cons, List.forall_mem_singleton]
    exact ⟨hgraph, hflat⟩
  have hcurr : ∀ t ∈ defaultTimes w w', record'.SearchTime t.engine t.current := by
    rw [defaultTimes, List.forall_mem_cons, List.forall_mem_singleton]
    exact ⟨hgraph', hflat'⟩
  exact checkRegression_of_times (not_badLimit hfinite hpos) hdistinct hbase hcurr

/-- An empty directory and a stopwatch that goes round, a few readings ahead. -/
def tickingWorld (ahead : Nat) : World :=
  .start (.directory []) fun n => .ofNat .double ((n + ahead) % 8)

theorem tickingWorld_laps (ahead n : Nat) : IsSeconds ((tickingWorld ahead).laps n) := by
  have hall : ∀ k < 8, isDuration (.ofNat .double k) = true := by decide
  exact isDuration_iff.1 (hall _ (Nat.mod_lt _ (by decide)))

theorem default_workflow_ticking :
    Config.check ⟨1, 1, 1, 1, 0⟩ = .ok () ∧ Config.check ⟨2, 1, 1, 3, 0⟩ = .ok () ∧
      Config.Countable ⟨1, 1, 1, 1, 0⟩ ∧ Config.Countable ⟨2, 1, 1, 3, 0⟩ ∧
      Path.Apart "a" "b" ∧ ∃ record record' after v,
        (saveEach [("a", record), ("b", record')]).run (.directory []) = (.ok (), after) ∧
        (loadRecord "a").run after = (.ok record, after) ∧
        (loadRecord "b").run after = (.ok record', after) ∧
        checkRegression record record' defaultNames defaultLimit = .ok v ∧
        v.comparisons.map (fun c => (c.engine, c.baseline, c.current)) =
          [(graphName, .ofNat .double 2, .ofNat .double 3),
            (flatName, .ofNat .double 5, .ofNat .double 6)] := by
  have hcheck : Config.check ⟨1, 1, 1, 1, 0⟩ = .ok () := by decide
  have hcheck' : Config.check ⟨2, 1, 1, 3, 0⟩ = .ok () := by decide
  have hcount : Config.Countable ⟨1, 1, 1, 1, 0⟩ := ⟨by decide, by decide⟩
  have hcount' : Config.Countable ⟨2, 1, 1, 3, 0⟩ := ⟨by decide, by decide⟩
  have hpaths : Path.Apart "a" "b" := {
    plain := Path.plain_name ⟨by decide, by decide⟩ (by decide) (by decide)
    plain_other := Path.plain_name ⟨by decide, by decide⟩ (by decide) (by decide)
    ne := by decide
    not_beside := by decide
    other_not_beside := by decide }
  refine ⟨hcheck, hcheck', hcount, hcount', hpaths, ?_⟩
  obtain ⟨record, record', -, -, hworkflow⟩ := default_workflow hcheck hcheck' hcount hcount'
    (tickingWorld_laps 0) (tickingWorld_laps 1) .stops .default .default .exhaustive .exhaustive
  obtain ⟨after, hsaves⟩ : ∃ after, (saveEach [("a", record), ("b", record')]).run
      (.directory []) = (.ok (), after) := ⟨_, rfl⟩
  obtain ⟨hload, hload', hverdict⟩ := hworkflow "a" "b" [] _ after hpaths (.inl rfl) hsaves
  obtain ⟨v, hv, hcomparisons⟩ := hverdict defaultLimit (by decide) (by decide)
  refine ⟨record, record', after, v, hsaves, hload, hload', hv, ?_⟩
  rw [hcomparisons]
  rfl

end CommandLine

end VectorBench
