import VectorBench.CommandLine.Benchmark
import VectorBench.Proofs.CommandLine.Runs
import VectorBench.Proofs.Dataset.Shape
import VectorBench.Proofs.Program.Ensures

/-!
# Measuring on a world

A run of the benchmark reads the stopwatch and does nothing else to a world.  What it yields is a
record of its configuration and its engines; over the default engines, with a configuration that is
fit for use and a dataset whose numbers can be counted, it does yield one.

    Timing (fun result => ∀ record, result = .ok record →
        record.config = config ∧ record.engineNames = engines.names)
      (runBenchmark overflow lap config engines)                              (runBenchmark_timing)
-/

namespace VectorBench.CommandLine

/-! ## Only time passes -/

/-- Two worlds differ at most in how often the stopwatch was read. -/
structure World.Later (w w' : World) : Prop where
  tree : w'.tree = w.tree
  out : w'.out = w.out
  err : w'.err = w.err
  laps : w'.laps = w.laps

theorem World.Later.refl (w : World) : World.Later w w := ⟨rfl, rfl, rfl, rfl⟩

theorem World.Later.trans {w w' w'' : World} (h : World.Later w w') (h' : World.Later w' w'') :
    World.Later w w'' where
  tree := h'.tree.trans h.tree
  out := h'.out.trans h.out
  err := h'.err.trans h.err
  laps := h'.laps.trans h.laps

/-- A command that reads the stopwatch and does nothing else, and yields values with a property. -/
abbrev Timing {α : Type} (Q : α → Prop) (c : Command α) : Prop :=
  Program.Ensures (fun r => r = Request.lap) Q c

section

variable {α : Type} {dataset : Dataset} {topK : UInt64} {config : Config}

theorem Timing.runOn {Q : α → Prop} {c : Command α} (h : Timing Q c) (w : World) :
    Q (runOn c w).1 ∧ World.Later w (runOn c w).2 := by
  refine h.run World.answer World.Later World.Later.refl (fun _ _ _ => World.Later.trans) ?_ w
  rintro r w rfl
  exact ⟨rfl, rfl, rfl, rfl⟩

theorem lap_timing : Timing (fun _ => True) lap := .ask rfl fun _ => .done trivial

/-- An adapter that at most reads the stopwatch. -/
def TimingAdapter (adapter : Adapter Command) : Prop :=
  ∀ corpus, Timing (fun built => ∀ search, built = .ok search →
    ∀ queries topK, Timing (fun _ => True) (search queries topK)) (adapter.build corpus)

theorem engine_timing (engine : Engine) : TimingAdapter engine.adapter := by
  intro corpus
  refine .done ?_
  cases engine.build corpus with
  | error e =>
    intro search h
    cases h
  | ok index =>
    intro search h queries topK
    cases h
    exact .done trivial

theorem measure_timing {adapter : Adapter Command} (h : TimingAdapter adapter) (name : String) :
    Timing (fun result => ∀ m, result = .ok m → m.engine = name)
      (measure lap dataset topK name adapter) := by
  unfold measure
  refine lap_timing.bind fun _ _ => (h dataset.vectors).bind fun built hbuilt => ?_
  split
  · exact .done fun m hm => nomatch hm
  · rename_i search
    refine lap_timing.bind fun build _ => (hbuilt search rfl dataset.queries topK).bind
      fun found _ => ?_
    split
    · exact .done fun m hm => nomatch hm
    · refine lap_timing.bind fun searched _ => .done ?_
      rintro m ⟨⟩
      rfl

theorem measureAll_timing {entries : List (String × Adapter Command)}
    (h : ∀ entry ∈ entries, TimingAdapter entry.2) :
    Timing (fun result => ∀ metrics, result = .ok metrics →
        metrics.map (·.engine) = entries.map (·.1))
      (measureAll lap dataset topK entries) := by
  induction entries with
  | nil =>
    refine .done ?_
    rintro metrics ⟨⟩
    rfl
  | cons entry rest ih =>
    obtain ⟨name, adapter⟩ := entry
    obtain ⟨hfirst, hrest⟩ := List.forall_mem_cons.1 h
    rw [measureAll]
    refine (measure_timing hfirst name).bind fun first hname => ?_
    split
    · exact .done fun metrics hm => nomatch hm
    · rename_i m
      refine (ih hrest).bind fun others hnames => ?_
      split
      · exact .done fun metrics hm => nomatch hm
      · rename_i more
        refine .done ?_
        rintro metrics ⟨⟩
        rw [List.map_cons, List.map_cons, hname m rfl, hnames more rfl]

theorem runBenchmark_timing (overflow : Overflow) {engines : Registry (Adapter Command)}
    (h : ∀ entry ∈ engines.entries, TimingAdapter entry.2) :
    Timing (fun result => ∀ record, result = .ok record →
        record.config = config ∧ record.engineNames = engines.names)
      (runBenchmark overflow lap config engines) := by
  unfold runBenchmark
  split
  · exact .done fun record hr => nomatch hr
  · exact .done fun record hr => nomatch hr
  · refine (measureAll_timing h).bind fun measured hmeasured => ?_
    split
    · exact .done fun record hr => nomatch hr
    · rename_i metrics
      split
      · exact .done fun record hr => nomatch hr
      · rename_i r hparts
        refine .done ?_
        rintro record ⟨⟩
        obtain ⟨hconfig, hmetrics⟩ := Record.ofParts_eq_ok hparts
        refine ⟨hconfig, ?_⟩
        rw [Record.engineNames, hmetrics]
        exact hmeasured metrics rfl

end

/-! ## The default engines -/

def World.pass (n : Nat) (w : World) : World := { w with lapsRead := w.lapsRead + n }

theorem runOn_lap (w : World) : runOn lap w = (w.laps w.lapsRead, w.pass 1) := rfl

section

variable {dataset : Dataset} {config : Config}

/-- An engine that keeps the dimension of its corpus serves the dataset of a configuration. -/
theorem engine_serves (engine : Engine) (hdim : ∀ corpus, (engine.index corpus).dim = corpus.dim)
    (hcheck : config.check = .ok ()) (hfills : dataset.Fills config) :
    ∃ index hits, engine.build dataset.vectors = .ok index ∧
      index.search dataset.queries config.topK = .ok hits := by
  obtain ⟨hsamples, hdims, -, htopK⟩ := configCheck_eq_ok_iff.1 hcheck
  have hlength : dataset.vectors.data.length ≠ 0 := by
    rw [hfills.vectors.data_length]
    exact Nat.mul_ne_zero (toNat_pos hsamples).ne' (toNat_pos hdims).ne'
  have hempty : dataset.vectors.isEmpty = false := by
    rw [VectorSet.isEmpty, List.isEmpty_eq_false_iff]
    intro hnil
    exact hlength (by rw [hnil, List.length_nil])
  have hsame : (engine.index dataset.vectors).dim = dataset.queries.dim := by
    rw [hdim, hfills.vectors.dim_eq, hfills.queries.dim_eq]
  refine ⟨engine.index dataset.vectors,
    dataset.queries.rows.map ((engine.index dataset.vectors).nearest config.topK), ?_, ?_⟩
  · rw [Engine.build, hempty, if_neg Bool.false_ne_true]
  · rw [Index.search, if_neg htopK, if_neg (not_not.2 hsame)]

theorem runOn_measure {engine : Engine} {index : Index} {hits : Hits} {topK : UInt64}
    (hbuild : engine.build dataset.vectors = .ok index)
    (hsearch : index.search dataset.queries topK = .ok hits) (name : String) (w : World) :
    runOn (measure lap dataset topK name engine.adapter) w =
      (.ok ⟨name, w.laps (w.lapsRead + 1), w.laps (w.lapsRead + 2)⟩, w.pass 3) := by
  have hadapter : engine.adapter.build dataset.vectors =
      (pure (.ok fun queries topK => pure (index.search queries topK)) : Command _) := by
    show (pure ((engine.build dataset.vectors).map _) : Command _) = _
    rw [hbuild]
    rfl
  rw [measure, runOn_bind, runOn_bind, hadapter, runOn_pure, runOn_lap]
  dsimp only
  rw [runOn_bind, runOn_lap, runOn_bind, hsearch, runOn_pure]
  rfl

theorem runOn_measureAll_cons {name : String} {adapter : Adapter Command} {topK : UInt64}
    {rest : List (String × Adapter Command)} {w w' w'' : World} {m : Measurement}
    {others : List Measurement} (h : runOn (measure lap dataset topK name adapter) w = (.ok m, w'))
    (hrest : runOn (measureAll lap dataset topK rest) w' = (.ok others, w'')) :
    runOn (measureAll lap dataset topK ((name, adapter) :: rest)) w = (.ok (m :: others), w'') := by
  rw [measureAll, runOn_bind, h]
  dsimp only
  rw [runOn_bind, hrest]
  rfl

/-- Measurements of the default engines make a record. -/
theorem default_fit {graphBuild graphSearch flatBuild flatSearch : Binary64}
    (hcheck : config.check = .ok ()) (hgraphBuild : IsSeconds graphBuild)
    (hgraphSearch : IsSeconds graphSearch) (hflatBuild : IsSeconds flatBuild)
    (hflatSearch : IsSeconds flatSearch) :
    Fit config [⟨graphName, graphBuild, graphSearch⟩, ⟨flatName, flatBuild, flatSearch⟩] := by
  obtain ⟨hsamples, hdims, hqueries, htopK⟩ := configCheck_eq_ok_iff.1 hcheck
  have hdistinct : [graphName, flatName].Nodup := by decide
  refine ⟨hsamples, hdims, hqueries, htopK, ?_, hdistinct, ?_, ?_⟩
  · simp only [List.forall_mem_cons]
    exact ⟨by decide, by decide, List.forall_mem_nil _⟩
  · simp only [List.forall_mem_cons]
    exact ⟨hgraphBuild, hflatBuild, List.forall_mem_nil _⟩
  · simp only [List.forall_mem_cons]
    exact ⟨hgraphSearch, hflatSearch, List.forall_mem_nil _⟩

/-- Over the default engines a run yields a record with the readings of the stopwatch. -/
theorem runOn_default (hcheck : config.check = .ok ()) (hcount : config.Countable)
    (overflow : Overflow) (w : World) (hlaps : ∀ n, IsSeconds (w.laps n)) (tuning : Tuning)
    (source : CandidateSource) :
    ∃ record, runOn (runBenchmark overflow lap config
        ((defaultEngines tuning source).map Engine.adapter)) w = (.ok record, w.pass 6) ∧
      record.config = config ∧
      record.metrics = [⟨graphName, w.laps (w.lapsRead + 1), w.laps (w.lapsRead + 2)⟩,
        ⟨flatName, w.laps (w.lapsRead + 4), w.laps (w.lapsRead + 5)⟩] := by
  obtain ⟨dataset, hdataset, hfills⟩ := Dataset.generate_of_check overflow hcheck (.inr hcount)
  obtain ⟨graph, graphHits, hgraph, hgraphHits⟩ :=
    engine_serves (.graph tuning source) (fun _ => rfl) hcheck (hfills hcount)
  obtain ⟨flat, flatHits, hflat, hflatHits⟩ :=
    engine_serves .flat (fun _ => rfl) hcheck (hfills hcount)
  let metrics : List Measurement := [⟨graphName, w.laps (w.lapsRead + 1), w.laps (w.lapsRead + 2)⟩,
    ⟨flatName, w.laps (w.lapsRead + 4), w.laps (w.lapsRead + 5)⟩]
  have hmeasured : runOn (measureAll lap dataset config.topK
      ((defaultEngines tuning source).map Engine.adapter).entries) w =
        (.ok metrics, (w.pass 3).pass 3) := by
    refine runOn_measureAll_cons (runOn_measure hgraph hgraphHits graphName w) ?_
    exact runOn_measureAll_cons (runOn_measure hflat hflatHits flatName (w.pass 3)) rfl
  have hfit : Fit config metrics := default_fit hcheck (hlaps _) (hlaps _) (hlaps _) (hlaps _)
  refine ⟨⟨config, metrics, checkParts_eq_ok_iff.2 hfit⟩, ?_, rfl, rfl⟩
  rw [runBenchmark, hdataset]
  dsimp only
  rw [runOn_bind, hmeasured]
  dsimp only
  rw [Record.ofParts_of_fit hfit]
  rfl

end

end VectorBench.CommandLine
