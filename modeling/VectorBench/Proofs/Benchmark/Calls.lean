import VectorBench.Benchmark
import VectorBench.Proofs.Dataset.Shape
import VectorBench.Proofs.Registry.Registrations

/-!
# The calls of a run

A run keeps to a plan: every engine in the order of its registration is built over the corpus and
then searched with the queries, and the first call that fails is the last one.  Adapters are
arbitrary here, with effects on a state that they may share; a record of their calls is kept beside
the run, which goes on as it would without it.

    Carried plan calls none       the calls are those of the plan, and all of them went well
    Carried plan calls (some f)   the calls stop behind f, the first one that failed
-/

namespace VectorBench

/-- What an adapter is asked to do. -/
inductive Work where
  | build (corpus : VectorSet)
  | search (queries : VectorSet) (topK : UInt64)

def Work.phase : Work → Phase
  | build _ => .build
  | search _ _ => .search

/-- Some work for the engine of a name. -/
structure Call where
  engine : String
  work : Work

/-- A call that was made, and how it ended. -/
abbrev Made := Call × Except EngineError Unit

/-! ## Recording -/

section

variable {σ : Type}

/-- Effects on a state beside which calls are recorded. -/
abbrev Recorded (σ : Type) := StateM (σ × List Made)

/-- The same effect, with nothing to record. -/
def unrecorded {α : Type} (x : StateM σ α) : Recorded σ α := fun (s, calls) =>
  let (a, s) := x s
  (a, s, calls)

/-- The same effect, recorded as a call. -/
def recording {α : Type} (call : Call) (x : StateM σ (Except EngineError α)) :
    Recorded σ (Except EngineError α) := fun (s, calls) =>
  let (a, s) := x s
  (a, s, calls ++ [(call, a.map fun _ => ())])

/-- An adapter whose calls are recorded under a name. -/
def Adapter.recorded (name : String) (adapter : Adapter (StateM σ)) : Adapter (Recorded σ) where
  build corpus := do
    let built ← recording ⟨name, .build corpus⟩ (adapter.build corpus)
    return built.map fun search queries topK =>
      recording ⟨name, .search queries topK⟩ (search queries topK)

def Registry.recorded (engines : Registry (Adapter (StateM σ))) : Registry (Adapter (Recorded σ)) :=
  ⟨engines.entries.map fun (name, adapter) => (name, adapter.recorded name)⟩

/-- The calls that a run makes from a state on. -/
def callsOf (overflow : Overflow) (lap : StateM σ Binary64) (config : Config)
    (engines : Registry (Adapter (StateM σ))) (s : σ) : List Made :=
  (runBenchmark overflow (unrecorded lap) config engines.recorded (s, [])).2.2

end

/-! ## Plans -/

/-- The calls that measure one engine. -/
def planOf (dataset : Dataset) (topK : UInt64) (name : String) : List Call :=
  [⟨name, .build dataset.vectors⟩, ⟨name, .search dataset.queries topK⟩]

/-- The calls that measure all engines. -/
def plan (dataset : Dataset) (topK : UInt64) (names : List String) : List Call :=
  names.flatMap (planOf dataset topK)

/-- The calls of a plan were made in their order, up to the first that failed. -/
inductive Carried (plan : List Call) : List Made → Option (Call × EngineError) → Prop where
  | out : Carried plan (plan.map fun call => (call, .ok ())) none
  | broken (before later : List Call) (call : Call) (e : EngineError)
      (split : plan = before ++ call :: later) :
      Carried plan (before.map (fun call => (call, .ok ())) ++ [(call, .error e)]) (some (call, e))

namespace Carried

variable {first second : List Call} {made more : List Made} {f : Call × EngineError}
  {failed : Option (Call × EngineError)}

theorem append (h : Carried first made none) (hmore : Carried second more failed) :
    Carried (first ++ second) (made ++ more) failed := by
  cases h with
  | out =>
    cases hmore with
    | out =>
      rw [← List.map_append]
      exact out
    | broken before later call e split =>
      rw [← List.append_assoc, ← List.map_append]
      exact broken (first ++ before) later call e (by rw [split, List.append_assoc])

theorem stop (h : Carried first made (some f)) : Carried (first ++ second) made (some f) := by
  cases h with
  | broken before later call e split =>
    exact broken before (later ++ second) call e (by rw [split, List.append_assoc]; rfl)

end Carried

/-- What comes of calls of which `failed` is the first to fail, if any is: its error, and a value
with a property otherwise. -/
def Reports {α : Type} (P : α → Prop) (failed : Option (Call × EngineError))
    (result : Except RunError α) : Prop :=
  match failed with
  | none => ∃ a, result = .ok a ∧ P a
  | some (call, e) => result = .error (.adapterFailure call.engine call.work.phase e)

/-- Carries out a plan, recorded or not: the calls of the plan are made up to the first that fails,
and what comes of them is the same. -/
def Performs {σ α : Type} (plan : List Call) (P : α → Prop) (plain : StateM σ (Except RunError α))
    (recorded : Recorded σ (Except RunError α)) : Prop :=
  ∀ s calls, ∃ result after made failed, plain s = (result, after) ∧
    recorded (s, calls) = (result, after, calls ++ made) ∧
    Carried plan made failed ∧ Reports P failed result

/-! ## One engine -/

section

variable {τ : Type} {overflow : Overflow} {lap : StateM τ Binary64} {dataset : Dataset}
  {topK : UInt64} {name : String}
  {adapter : Adapter (StateM τ)} {s s₁ s₂ s₃ s₄ s₅ : τ} {started built searched : Binary64}
  {search : VectorSet → UInt64 → StateM τ (Except EngineError Hits)} {hits : Hits} {e : EngineError}

theorem run_bind_eq {α β : Type} {x : StateM τ α} {a : α} (h : x s = (a, s₁)) (k : α → StateM τ β) :
    (x >>= k) s = k a s₁ := by
  show (let (a, s) := x s; k a s) = _
  rw [h]

theorem measure_build_failed (hstart : lap s = (started, s₁))
    (hbuild : adapter.build dataset.vectors s₁ = (.error e, s₂)) :
    measure lap dataset topK name adapter s = (.error (.adapterFailure name .build e), s₂) := by
  rw [measure, run_bind_eq hstart, run_bind_eq hbuild]
  rfl

theorem measure_search_failed (hstart : lap s = (started, s₁))
    (hbuild : adapter.build dataset.vectors s₁ = (.ok search, s₂)) (hbuilt : lap s₂ = (built, s₃))
    (hsearch : search dataset.queries topK s₃ = (.error e, s₄)) :
    measure lap dataset topK name adapter s = (.error (.adapterFailure name .search e), s₄) := by
  rw [measure, run_bind_eq hstart, run_bind_eq hbuild]
  dsimp only
  rw [run_bind_eq hbuilt, run_bind_eq hsearch]
  rfl

theorem measure_done (hstart : lap s = (started, s₁))
    (hbuild : adapter.build dataset.vectors s₁ = (.ok search, s₂)) (hbuilt : lap s₂ = (built, s₃))
    (hsearch : search dataset.queries topK s₃ = (.ok hits, s₄))
    (hsearched : lap s₄ = (searched, s₅)) :
    measure lap dataset topK name adapter s = (.ok ⟨name, built, searched⟩, s₅) := by
  rw [measure, run_bind_eq hstart, run_bind_eq hbuild]
  dsimp only
  rw [run_bind_eq hbuilt, run_bind_eq hsearch]
  dsimp only
  rw [run_bind_eq hsearched]
  rfl

theorem measureAll_failed {rest : List (String × Adapter (StateM τ))} {cause : RunError}
    (h : measure lap dataset topK name adapter s = (.error cause, s₁)) :
    measureAll lap dataset topK ((name, adapter) :: rest) s = (.error cause, s₁) := by
  rw [measureAll, run_bind_eq h]
  rfl

theorem measureAll_cons {rest : List (String × Adapter (StateM τ))} {m : Measurement}
    {others : Except RunError (List Measurement)}
    (h : measure lap dataset topK name adapter s = (.ok m, s₁))
    (hrest : measureAll lap dataset topK rest s₁ = (others, s₂)) :
    measureAll lap dataset topK ((name, adapter) :: rest) s = (others.map (m :: ·), s₂) := by
  rw [measureAll, run_bind_eq h]
  dsimp only
  rw [run_bind_eq hrest]
  cases others with
  | error e => rfl
  | ok metrics => rfl

/-- Over a dataset, a run yields what measuring all engines yields, made into a record. -/
theorem runBenchmark_eq {config : Config} {engines : Registry (Adapter (StateM τ))}
    {measured : Except RunError (List Measurement)}
    (hdataset : Dataset.generate overflow config = .ok dataset)
    (h : measureAll lap dataset config.topK engines.entries s = (measured, s₁)) :
    runBenchmark overflow lap config engines s =
      (measured.bind fun metrics => (Record.ofParts config metrics).mapError .invalidRecord,
        s₁) := by
  rw [runBenchmark, hdataset]
  dsimp only
  rw [run_bind_eq h]
  cases measured with
  | error e => rfl
  | ok metrics =>
    dsimp only [Except.bind]
    cases hrecord : Record.ofParts config metrics with
    | error e => rfl
    | ok record => rfl

end

/-! ## Carrying out the plan -/

section

variable {σ α : Type} {s s' : σ}

theorem unrecorded_eq {x : StateM σ α} {a : α} (h : x s = (a, s')) (calls : List Made) :
    unrecorded x (s, calls) = (a, s', calls) := by
  show (let (a, s) := x s; (a, s, calls)) = _
  rw [h]

theorem recording_eq {x : StateM σ (Except EngineError α)} {a : Except EngineError α}
    (h : x s = (a, s')) (call : Call) (calls : List Made) :
    recording call x (s, calls) = (a, s', calls ++ [(call, a.map fun _ => ())]) := by
  show (let (a, s) := x s; (a, s, calls ++ [(call, a.map fun _ => ())])) = _
  rw [h]

/-- Building is one call, and what it yields is searched with one call. -/
theorem recorded_build_eq {adapter : Adapter (StateM σ)} {corpus : VectorSet}
    {built : Except EngineError (VectorSet → UInt64 → StateM σ (Except EngineError Hits))}
    (h : adapter.build corpus s = (built, s')) (name : String) (calls : List Made) :
    (adapter.recorded name).build corpus (s, calls) =
      (built.map fun search queries topK =>
          recording ⟨name, .search queries topK⟩ (search queries topK),
        s', calls ++ [(⟨name, .build corpus⟩, built.map fun _ => ())]) :=
  run_bind_eq (recording_eq h ⟨name, .build corpus⟩ calls) _

end

/-- A measurement of the engine of a name, with two durations. -/
structure Timed (name : String) (m : Measurement) : Prop where
  engine : m.engine = name
  build : IsSeconds m.buildSeconds
  search : IsSeconds m.searchSeconds

section

variable {σ : Type} {lap : StateM σ Binary64} (hlap : ∀ s, IsSeconds (lap s).1) (dataset : Dataset)
  (topK : UInt64)

include hlap

/-- One engine is built and, unless that fails, searched. -/
theorem measure_performs (name : String) (adapter : Adapter (StateM σ)) :
    Performs (planOf dataset topK name) (Timed name) (measure lap dataset topK name adapter)
      (measure (unrecorded lap) dataset topK name (adapter.recorded name)) := by
  intro s calls
  let build : Call := ⟨name, .build dataset.vectors⟩
  let search : Call := ⟨name, .search dataset.queries topK⟩
  rcases hstart : lap s with ⟨started, s₁⟩
  have hstart' := unrecorded_eq hstart calls
  rcases hbuild : adapter.build dataset.vectors s₁ with ⟨e | rank, s₂⟩
  · have hbuild' := recorded_build_eq hbuild name calls
    exact ⟨_, s₂, _, some (build, e), measure_build_failed hstart hbuild,
      measure_build_failed hstart' hbuild', .broken [] [search] build e rfl, rfl⟩
  have hbuild' := recorded_build_eq hbuild name calls
  rcases hbuilt : lap s₂ with ⟨built, s₃⟩
  have hbuilt' := unrecorded_eq hbuilt (calls ++ [(build, .ok ())])
  rcases hsearch : rank dataset.queries topK s₃ with ⟨e | hits, s₄⟩
  · have hsearch' := recording_eq hsearch search (calls ++ [(build, .ok ())])
    rw [List.append_assoc] at hsearch'
    exact ⟨_, s₄, _, some (search, e), measure_search_failed hstart hbuild hbuilt hsearch,
      measure_search_failed hstart' hbuild' hbuilt' hsearch', .broken [build] [] search e rfl, rfl⟩
  · have hsearch' := recording_eq hsearch search (calls ++ [(build, .ok ())])
    rw [List.append_assoc] at hsearch'
    rcases hsearched : lap s₄ with ⟨searched, s₅⟩
    have hsearched' := unrecorded_eq hsearched (calls ++ [(build, .ok ()), (search, .ok ())])
    have htimed : Timed name ⟨name, built, searched⟩ := by
      refine ⟨rfl, ?_, ?_⟩
      · have h := hlap s₂
        rwa [hbuilt] at h
      · have h := hlap s₄
        rwa [hsearched] at h
    exact ⟨_, s₅, _, none, measure_done hstart hbuild hbuilt hsearch hsearched,
      measure_done hstart' hbuild' hbuilt' hsearch' hsearched', .out, _, rfl, htimed⟩

/-- Engines are measured one after the other, up to the first call that fails. -/
theorem measureAll_performs (entries : List (String × Adapter (StateM σ))) :
    Performs (plan dataset topK (entries.map (·.1)))
      (fun metrics => List.Forall₂ Timed (entries.map (·.1)) metrics)
      (measureAll lap dataset topK entries)
      (measureAll (unrecorded lap) dataset topK
        (entries.map fun (name, adapter) => (name, adapter.recorded name))) := by
  induction entries with
  | nil =>
    intro s calls
    refine ⟨.ok [], s, [], none, rfl, ?_, .out, [], rfl, .nil⟩
    rw [List.append_nil]
    rfl
  | cons entry rest ih =>
    obtain ⟨name, adapter⟩ := entry
    intro s calls
    obtain ⟨first, after, made, failed, hplain, hrecorded, hcarried, hreports⟩ :=
      measure_performs hlap dataset topK name adapter s calls
    cases failed with
    | some f =>
      cases hreports
      exact ⟨_, after, made, some f, measureAll_failed hplain, measureAll_failed hrecorded,
        hcarried.stop, rfl⟩
    | none =>
      obtain ⟨m, rfl, hm⟩ := hreports
      obtain ⟨others, last, more, failed, hplain', hrecorded', hcarried', hreports'⟩ :=
        ih after (calls ++ made)
      rw [List.append_assoc] at hrecorded'
      refine ⟨_, last, made ++ more, failed, measureAll_cons hplain hplain',
        measureAll_cons hrecorded hrecorded', hcarried.append hcarried', ?_⟩
      cases failed with
      | some f =>
        cases hreports'
        rfl
      | none =>
        obtain ⟨metrics, rfl, hmetrics⟩ := hreports'
        exact ⟨m :: metrics, rfl, .cons hm hmetrics⟩

end

/-! ## The run -/

/-- What a run over engines of the given names yields when `failed` is the first of its calls that
fails, if any does. -/
inductive Yielded (config : Config) (names : List String) :
    Option (Call × EngineError) → Except RunError Record → Prop where
  | failure (call : Call) (e : EngineError) :
      Yielded config names (some (call, e))
        (.error (.adapterFailure call.engine call.work.phase e))
  | blank (h : ∃ name ∈ names, isBlank name = true) :
      Yielded config names none (.error (.invalidRecord .blankEngine))
  | record (r : Record) (hconfig : r.config = config) (hnames : r.engineNames = names)
      (h : ∀ name ∈ names, isBlank name = false) : Yielded config names none (.ok r)

/-- The law of a run.  A configuration that is not fit for use is refused before any call, and a
program that stops at numbers that cannot be counted stops before any call.  With other
configurations the engines are built over the corpus and searched with the queries as far as the
first call that fails, and the run yields what follows from that. -/
structure KeepsToPlan (overflow : Overflow) (config : Config) (names : List String)
    (calls : List Made) (result : Except RunError Record) : Prop where
  refused : ∀ e, config.check = .error e → calls = [] ∧ result = .error (.invalidConfig e)
  stopped : config.check = .ok () → overflow = .stops → ¬ config.Countable →
    calls = [] ∧ result = .error .overflow
  carried : config.check = .ok () → overflow = .wraps ∨ config.Countable → ∃ dataset failed,
    Dataset.generate overflow config = .ok dataset ∧ (config.Countable → dataset.Fills config) ∧
    Carried (plan dataset config.topK names) calls failed ∧ Yielded config names failed result

theorem Timed.all {names : List String} {metrics : List Measurement}
    (h : List.Forall₂ Timed names metrics) :
    metrics.map (·.engine) = names ∧ (∀ m ∈ metrics, IsSeconds m.buildSeconds) ∧
      ∀ m ∈ metrics, IsSeconds m.searchSeconds := by
  induction h with
  | nil => exact ⟨rfl, nofun, nofun⟩
  | cons hm _ ih =>
    obtain ⟨hnames, hbuild, hsearch⟩ := ih
    exact ⟨List.cons_eq_cons.2 ⟨hm.engine, hnames⟩, List.forall_mem_cons.2 ⟨hm.build, hbuild⟩,
      List.forall_mem_cons.2 ⟨hm.search, hsearch⟩⟩

/-- Measurements of engines with different names make a record, unless a name is blank. -/
theorem ofParts_timed {config : Config} {names : List String} {metrics : List Measurement}
    (hcheck : config.check = .ok ()) (hnodup : names.Nodup)
    (htimed : List.Forall₂ Timed names metrics) :
    Yielded config names none ((Record.ofParts config metrics).mapError .invalidRecord) := by
  obtain ⟨rfl, hbuild, hsearch⟩ := Timed.all htimed
  by_cases hblank : ∃ m ∈ metrics, isBlank m.engine = true
  · have hrefused : checkParts config metrics = .error .blankEngine := by
      rw [checkParts, hcheck]
      exact checkMeasurements_of_blank hbuild hsearch (fun _ _ => List.not_mem_nil) hnodup hblank
    rw [Record.ofParts_of_check_error hrefused]
    apply Yielded.blank
    obtain ⟨m, hm, h⟩ := hblank
    exact ⟨m.engine, List.mem_map_of_mem hm, h⟩
  · have hnamed : ∀ m ∈ metrics, isBlank m.engine = false := by
      intro m hm
      rw [← Bool.not_eq_true]
      intro h
      exact hblank ⟨m, hm, h⟩
    obtain ⟨hsamples, hdims, hqueries, htopK⟩ := configCheck_eq_ok_iff.1 hcheck
    rw [Record.ofParts_of_fit
      ⟨hsamples, hdims, hqueries, htopK, hnamed, hnodup, hbuild, hsearch⟩]
    exact .record _ rfl rfl (List.forall_mem_map.2 hnamed)

section

variable {σ : Type} {lap : StateM σ Binary64}

/-- Whatever the adapters do, a run keeps to its plan. -/
theorem runBenchmark_calls (overflow : Overflow) (hlap : ∀ s, IsSeconds (lap s).1)
    (config : Config) (offers : List (String × Adapter (StateM σ))) (s : σ) :
    KeepsToPlan overflow config (Registry.empty.registerAll offers).names
      (callsOf overflow lap config (Registry.empty.registerAll offers) s)
      (runBenchmark overflow lap config (Registry.empty.registerAll offers) s).1 := by
  have hnodup : (Registry.empty.registerAll offers).names.Nodup := by
    apply Registry.nodup_names_registerAll
    exact List.nodup_nil
  generalize Registry.empty.registerAll offers = engines at hnodup
  constructor
  · intro e he
    rw [callsOf, runBenchmark, runBenchmark, Dataset.generate_of_check_error he]
    exact ⟨rfl, rfl⟩
  · rintro hcheck rfl hcount
    rw [callsOf, runBenchmark, runBenchmark, Dataset.generate_stops hcheck hcount]
    exact ⟨rfl, rfl⟩
  · intro hcheck hgoes
    obtain ⟨dataset, hdataset, hfills⟩ := Dataset.generate_of_check overflow hcheck hgoes
    obtain ⟨measured, after, made, failed, hplain, hrecorded, hcarried, hreports⟩ :=
      measureAll_performs hlap dataset config.topK engines.entries s []
    rw [List.nil_append] at hrecorded
    refine ⟨dataset, failed, hdataset, hfills, ?_, ?_⟩
    · have hrun : runBenchmark overflow (unrecorded lap) config engines.recorded (s, []) =
          (_, after, made) := runBenchmark_eq hdataset hrecorded
      rw [callsOf, hrun]
      exact hcarried
    · rw [runBenchmark_eq hdataset hplain]
      cases failed with
      | some f =>
        cases hreports
        exact .failure f.1 f.2
      | none =>
        obtain ⟨metrics, rfl, htimed⟩ := hreports
        exact ofParts_timed hcheck hnodup htimed

def stillWatch : StateM Nat Binary64 := pure (.zero false)

/-- An adapter that counts what it is asked for and has one answer to every search. -/
def answering (answer : Except EngineError Hits) : Adapter (StateM Nat) where
  build _ := do
    modify (· + 1)
    return .ok fun _ _ => do
      modify (· + 1)
      return answer

/-- Three engines, of which the second fails when it is searched, and one offer that is refused. -/
def mixedOffers : List (String × Adapter (StateM Nat)) :=
  [("a", answering (.ok [])), ("a", answering (.error .invalidTopK)),
    ("b", answering (.error .notBuilt)), ("c", answering (.ok []))]

/-- The run ends behind the search that fails, and the third engine is not touched. -/
theorem runBenchmark_calls_failing :
    (∀ s, IsSeconds (stillWatch s).1) ∧
      KeepsToPlan .stops ⟨1, 1, 1, 1, 0⟩ ["a", "b", "c"]
        (callsOf .stops stillWatch ⟨1, 1, 1, 1, 0⟩ (Registry.empty.registerAll mixedOffers) 0)
        (runBenchmark .stops stillWatch ⟨1, 1, 1, 1, 0⟩
          (Registry.empty.registerAll mixedOffers) 0).1 ∧
      (callsOf .stops stillWatch ⟨1, 1, 1, 1, 0⟩ (Registry.empty.registerAll mixedOffers) 0).map
          (fun made => (made.1.engine, made.1.work.phase, made.2.toOption)) =
        [("a", .build, some ()), ("a", .search, some ()), ("b", .build, some ()),
          ("b", .search, none)] ∧
      runBenchmark .stops stillWatch ⟨1, 1, 1, 1, 0⟩ (Registry.empty.registerAll mixedOffers) 0 =
        (.error (.adapterFailure "b" .search .notBuilt), 4) := by
  have hlap : ∀ s, IsSeconds (stillWatch s).1 := fun _ => ⟨rfl, nofun⟩
  exact ⟨hlap, runBenchmark_calls .stops hlap ⟨1, 1, 1, 1, 0⟩ mixedOffers 0, rfl, rfl⟩

end

end VectorBench
