import VectorBench.Proofs.CommandLine.Measuring
import VectorBench.Proofs.Store.Written

/-!
# What a benchmark leaves

The command writes files only when it has a record: first the record, then its chart, in place.  When
it ends well, the chart is under the one path and the record under the other, unless both paths lead
to one place: nothing compares them, and a chart is not a record.

    status.code = 2 → after.tree = before.tree
    status.code = 0 → help was asked for, or `Published a record after.tree`     (annBenchmark_files)
-/

namespace VectorBench.CommandLine

/-! ## A chart is not a record -/

theorem decode_markup {text : String} {rest : List Char} (h : text.toList = '<' :: rest) :
    ∃ e, Record.decode text = .error e := by
  rw [Record.decode, Json.readDocument, Json.Cursor.ofText, h]
  exact ⟨_, rfl⟩

theorem svg_markup (c : Chart) : ∃ rest, c.svg.toList = '<' :: rest := by
  unfold Chart.svg
  simp only [String.toList_append]
  exact ⟨_, rfl⟩

theorem recordOfBytes_chart (r : Record) : ∃ e, recordOfBytes r.chartBytes = .error e := by
  obtain ⟨rest, hrest⟩ := svg_markup (Chart.ofRecord r)
  obtain ⟨e, he⟩ := decode_markup hrest
  refine ⟨.malformed e, ?_⟩
  unfold recordOfBytes Record.chartBytes
  simp only [textOfBytes_toUTF8, he, Except.mapError]

/-! ## Publishing -/

/-- The record and its chart are where the arguments say. -/
structure Published (a : BenchmarkArguments) (record : Record) (tree : Node) : Prop where
  config : record.config = ⟨a.samples, a.dims, a.queries, a.topK, a.seed⟩
  names : record.engineNames = [graphName, flatName]
  chart : Tree.read tree a.chartOutput = .ok record.chartBytes
  loaded : ¬ Tree.SamePlace tree a.jsonOutput a.chartOutput →
    (loadRecord a.jsonOutput).run tree = (.ok record, tree)

section

variable {r : Record} {json chart : String} {t t₁ t₂ : Node} (hroot : t.kind = .directory)
  (hrecord : (saveRecord r json).run t = (.ok (), t₁))
  (hchart : (saveChart r chart).run t₁ = (.ok (), t₂))

include hroot hrecord hchart

/-- The chart leaves the record alone when its path leads to another place. -/
theorem loadRecord_of_apart (hapart : ¬ Tree.SamePlace t₂ json chart) :
    (loadRecord json).run t₂ = (.ok r, t₂) := by
  have hkept : Tree.read t₂ json = .ok r.bytes :=
    saveChart_keeps_read (FileProgram.run_root hroot hrecord) hchart hapart
      (saveRecord_read hroot hrecord)
  rw [run_loadRecord, hkept]
  show (recordOfBytes r.bytes, t₂) = _
  rw [recordOfBytes_bytes]

/-- The chart takes the place of the record when both paths lead there. -/
theorem loadRecord_of_together (hsame : Tree.SamePlace t₂ json chart) :
    ∃ e, (loadRecord json).run t₂ = (.error e, t₂) := by
  obtain ⟨place, hjson, hplace⟩ := hsame
  have hread : Tree.read t₂ chart = .ok r.chartBytes :=
    saveChart_read (FileProgram.run_root hroot hrecord) hchart
  obtain ⟨place', hplace', hfile⟩ := Tree.read_eq_ok_iff_at.1 hread
  obtain rfl := hplace.unique hplace'
  have hreplaced : Tree.read t₂ json = .ok r.chartBytes :=
    Tree.read_eq_ok_iff_at.2 ⟨place, hjson, hfile⟩
  obtain ⟨e, he⟩ := recordOfBytes_chart r
  refine ⟨e, ?_⟩
  rw [run_loadRecord, hreplaced]
  show (recordOfBytes r.chartBytes, t₂) = _
  rw [he]

end

/-- Publishing fails, or it succeeds once both files were written. -/
theorem runOn_publish (r : Record) (json chart : String) (w : World) :
    (runOn (publish r json chart) w).1 = .failure ∨
      (runOn (publish r json chart) w).1 = .success ∧
        ∃ t₁, (saveRecord r json).run w.tree = (.ok (), t₁) ∧
          (saveChart r chart).run t₁ = (.ok (), (runOn (publish r json chart) w).2.tree) := by
  rw [publish, runOn_bind, runOn_printLines]
  dsimp only
  rw [runOn_bind, runOn_ofFiles]
  rw [World.tree_print]
  cases hrecord : (saveRecord r json).run w.tree with
  | mk answer t₁ =>
    cases answer with
    | error e =>
      left
      dsimp only
      rw [runOn_fail]
    | ok _ =>
      dsimp only
      rw [runOn_bind, runOn_say, runOn_bind, runOn_ofFiles]
      rw [World.tree_print]
      cases hchart : (saveChart r chart).run t₁ with
      | mk answer t₂ =>
        cases answer with
        | error e =>
          left
          dsimp only
          rw [runOn_fail]
        | ok _ =>
          right
          dsimp only
          rw [runOn_bind, runOn_say, runOn_pure]
          refine ⟨rfl, t₁, rfl, ?_⟩
          rw [hchart]
          rfl

/-! ## The command -/

/-- The run of the benchmark itself fails: the graph cannot be built at all, or there is no record. -/
def RunFails (overflow : Overflow) (source : CandidateSource) (a : BenchmarkArguments) (w : World) :
    Prop :=
  ∃ config tuning, a.config = .ok config ∧ a.tuning = .ok tuning ∧
    (tooManyLinks overflow config tuning = true ∨
      ∃ e, (runOn (runBenchmark overflow lap config
        ((defaultEngines tuning source).map Engine.adapter)) w).1 = .error e)

theorem config_of_arguments {a : BenchmarkArguments} {config : Config} (h : a.config = .ok config) :
    config = ⟨a.samples, a.dims, a.queries, a.topK, a.seed⟩ := by
  unfold BenchmarkArguments.config at h
  cases hcheck : Config.check ⟨a.samples, a.dims, a.queries, a.topK, a.seed⟩ with
  | error e =>
    simp only [hcheck] at h
    cases h
  | ok _ =>
    simp only [hcheck] at h
    cases h
    rfl

section

variable (overflow : Overflow) (source : CandidateSource) (config : Config) (tuning : Tuning)
  (json chart : String) (w : World)

theorem default_timing :
    Timing (fun result => ∀ record, result = .ok record →
        record.config = config ∧ record.engineNames = [graphName, flatName])
      (runBenchmark overflow lap config
        ((defaultEngines tuning source).map Engine.adapter)) := by
  have hengines : ∀ entry ∈ ((defaultEngines tuning source).map
      (Engine.adapter : Engine → Adapter Command)).entries, TimingAdapter entry.2 := by
    intro entry hentry
    obtain ⟨engine, -, rfl⟩ := List.mem_map.1 hentry
    exact engine_timing engine.2
  exact runBenchmark_timing overflow hengines

/-- With a run that fails the command leaves the tree as it was. -/
theorem runOn_benchmark_fails
    (h : tooManyLinks overflow config tuning = true ∨
      ∃ e, (runOn (runBenchmark overflow lap config
        ((defaultEngines tuning source).map Engine.adapter)) w).1 = .error e) :
    (runOn (benchmark overflow source config tuning json chart) w).2.tree = w.tree := by
  rw [benchmark]
  split
  · rw [runOn_bind, runOn_say, runOn_pure]
    rfl
  · rename_i hlinks
    obtain ⟨e, he⟩ := h.resolve_left hlinks
    obtain ⟨-, hlater⟩ := (default_timing overflow source config tuning).runOn w
    rw [runOn_bind, he]
    split
    · rw [runOn_fail]
      exact hlater.tree
    · rw [runOn_fail]
      exact hlater.tree
    · rename_i hok
      cases hok

/-- The command fails or stops, or it succeeds once the record of its run and the chart were
written. -/
theorem runOn_benchmark :
    ((runOn (benchmark overflow source config tuning json chart) w).1 = .failure ∨
        (runOn (benchmark overflow source config tuning json chart) w).1 = .stopped) ∨
      (runOn (benchmark overflow source config tuning json chart) w).1 = .success ∧
        ∃ record t₁, record.config = config ∧ record.engineNames = [graphName, flatName] ∧
          (saveRecord record json).run w.tree = (.ok (), t₁) ∧
          (saveChart record chart).run t₁ =
            (.ok (), (runOn (benchmark overflow source config tuning json chart) w).2.tree) := by
  rw [benchmark]
  split
  · left
    left
    rw [runOn_bind, runOn_pure]
  · obtain ⟨hrecord, hlater⟩ := (default_timing overflow source config tuning).runOn w
    rw [runOn_bind]
    cases hrun : (runOn (runBenchmark overflow lap config
        ((defaultEngines tuning source).map Engine.adapter)) w).1 with
    | error e =>
      left
      cases e with
      | overflow => exact .inr (by rw [runOn_fail])
      | _ => exact .inl (by rw [runOn_fail])
    | ok record =>
      dsimp only
      obtain ⟨hconfig, hnames⟩ := hrecord record hrun
      rcases runOn_publish record json chart _ with hfailed | ⟨hdone, t₁, hsaved, hdrawn⟩
      · exact .inl (.inl hfailed)
      · rw [hlater.tree] at hsaved
        exact .inr ⟨hdone, record, t₁, hconfig, hnames, hsaved, hdrawn⟩

end

/-- The counts of the dataset come before the links of the graph. -/
theorem tooManyLinks_stops {config : Config} (hcount : ¬ config.Countable) (tuning : Tuning) :
    tooManyLinks .stops config tuning = false := by
  rw [← Bool.not_eq_true, tooManyLinks, Bool.and_eq_true, Bool.and_eq_true]
  rintro ⟨⟨-, hcorpus⟩, hqueries⟩
  apply hcount
  constructor
  · by_contra hfit
    rw [Overflow.count?_eq_none_iff.2 ⟨rfl, hfit⟩] at hcorpus
    cases hcorpus
  · by_contra hfit
    rw [Overflow.count?_eq_none_iff.2 ⟨rfl, hfit⟩] at hqueries
    cases hqueries

/-- A program that stops at the counts of its dataset does nothing else. -/
theorem runOn_benchmark_stops {config : Config} (hcheck : config.check = .ok ())
    (hcount : ¬ config.Countable) (source : CandidateSource) (tuning : Tuning)
    (json chart : String) (w : World) :
    runOn (benchmark .stops source config tuning json chart) w =
      (.stopped, w.print [(.err, RunError.overflow.message)]) := by
  rw [benchmark, tooManyLinks_stops hcount, if_neg Bool.false_ne_true, runBenchmark,
    Dataset.generate_stops hcheck hcount]
  exact runOn_fail _ _ _

/-- What the command leaves in the tree, by how it ends.  When it ends well, help was asked for, or
the record of its run and the chart are where the arguments say. -/
structure Leaves (overflow : Overflow) (source : CandidateSource)
    (environment : String → Option String) (arguments : List String) (w : World)
    (status : ExitStatus) (after : Node) : Prop where
  misuse : status.code = 2 → after = w.tree
  failed : ∀ a, BenchmarkArguments.read environment arguments = .ok a →
    RunFails overflow source a w →
    after = w.tree
  success : status.code = 0 →
    BenchmarkArguments.read environment arguments = .error .help ∧ after = w.tree ∨
      ∃ a record, BenchmarkArguments.read environment arguments = .ok a ∧ Published a record after

theorem leaves_of_same {overflow : Overflow} {source : CandidateSource} {environment : String → Option String}
    {arguments : List String} {w : World} {status : ExitStatus} {after : Node}
    (hsame : after = w.tree)
    (hstatus : status = .misuse ∨ BenchmarkArguments.read environment arguments = .error .help) :
    Leaves overflow source environment arguments w status after where
  misuse _ := hsame
  failed _ _ _ := hsame
  success hzero := by
    rcases hstatus with rfl | hhelp
    · exact absurd hzero (by decide)
    · exact .inl ⟨hhelp, hsame⟩

theorem leaves_of_benchmark {overflow : Overflow} {source : CandidateSource} {environment : String → Option String}
    {arguments : List String} {w : World} {a : BenchmarkArguments} {config : Config}
    {tuning : Tuning} (hroot : w.tree.kind = .directory)
    (hread : BenchmarkArguments.read environment arguments = .ok a) (hconfig : a.config = .ok config)
    (htuning : a.tuning = .ok tuning) :
    Leaves overflow source environment arguments w
      (runOn (benchmark overflow source config tuning a.jsonOutput a.chartOutput) w).1
      (runOn (benchmark overflow source config tuning a.jsonOutput a.chartOutput) w).2.tree := by
  have hcases := runOn_benchmark overflow source config tuning a.jsonOutput a.chartOutput w
  refine ⟨?_, ?_, ?_⟩
  · intro hmisuse
    rcases hcases with (hfailure | hstopped) | ⟨hsuccess, -⟩
    · rw [hfailure] at hmisuse
      exact absurd hmisuse (by decide)
    · rw [hstopped] at hmisuse
      exact absurd hmisuse (by decide)
    · rw [hsuccess] at hmisuse
      exact absurd hmisuse (by decide)
  · rintro a' ha' ⟨config', tuning', hconfig', htuning', hfails⟩
    rw [hread] at ha'
    cases ha'
    rw [hconfig] at hconfig'
    cases hconfig'
    rw [htuning] at htuning'
    cases htuning'
    exact runOn_benchmark_fails overflow source config tuning a.jsonOutput a.chartOutput w hfails
  · intro hzero
    rcases hcases with (hfailure | hstopped) | ⟨-, record, t₁, hrecord, hnames, hsaved, hdrawn⟩
    · rw [hfailure] at hzero
      exact absurd hzero (by decide)
    · rw [hstopped] at hzero
      exact absurd hzero (by decide)
    · have hchart : Tree.read _ a.chartOutput = .ok record.chartBytes :=
        saveChart_read (FileProgram.run_root hroot hsaved) hdrawn
      refine .inr ⟨a, record, hread, ?_, hnames, hchart, loadRecord_of_apart hroot hsaved hdrawn⟩
      rw [hrecord, config_of_arguments hconfig]

/-- The arguments do not make sense, or help is asked for, or the benchmark is run. -/
theorem annBenchmark_cases (overflow : Overflow) (source : CandidateSource)
    (environment : String → Option String) (arguments : List String) (w : World) :
    (∃ status after, runOn (annBenchmark overflow source environment arguments) w = (status, after) ∧
        after.tree = w.tree ∧
        (status = .misuse ∨ BenchmarkArguments.read environment arguments = .error .help)) ∨
      ∃ a config tuning, BenchmarkArguments.read environment arguments = .ok a ∧
        a.config = .ok config ∧ a.tuning = .ok tuning ∧
        annBenchmark overflow source environment arguments =
          benchmark overflow source config tuning a.jsonOutput a.chartOutput := by
  cases hread : BenchmarkArguments.read environment arguments with
  | error e =>
    left
    rw [annBenchmark, hread]
    cases e with
    | help => exact ⟨_, _, rfl, rfl, .inr rfl⟩
    | _ => exact ⟨_, _, rfl, rfl, .inl rfl⟩
  | ok a =>
    rw [annBenchmark, hread]
    dsimp only
    cases hconfig : a.config with
    | error e => exact .inl ⟨_, _, rfl, rfl, .inl rfl⟩
    | ok config =>
      cases htuning : a.tuning with
      | error e => exact .inl ⟨_, _, rfl, rfl, .inl rfl⟩
      | ok tuning => exact .inr ⟨a, config, tuning, rfl, hconfig, htuning, rfl⟩

/-- The command leaves the tree alone when its arguments do not make sense or its run fails, and its
record and its chart in it when it ends well. -/
theorem annBenchmark_files (overflow : Overflow) (source : CandidateSource)
    (environment : String → Option String) (arguments : List String)
    (entries : List (String × Node)) (laps : Nat → Binary64) :
    Leaves overflow source environment arguments (.start (.directory entries) laps)
      (runOn (annBenchmark overflow source environment arguments)
        (.start (.directory entries) laps)).1
      (runOn (annBenchmark overflow source environment arguments)
        (.start (.directory entries) laps)).2.tree := by
  have hroot : (World.start (.directory entries) laps).tree.kind = .directory := rfl
  generalize World.start (.directory entries) laps = w at hroot
  rcases annBenchmark_cases overflow source environment arguments w with
    ⟨status, after, hrun, hsame, hstatus⟩ | ⟨a, config, tuning, hread, hconfig, htuning, hrun⟩
  · rw [hrun]
    exact leaves_of_same hsame hstatus
  · rw [hrun]
    exact leaves_of_benchmark hroot hread hconfig htuning

/-! ## Runs that end well -/

/-- The command ends well when its run yields a record and both files can be written. -/
theorem runOn_annBenchmark_done {overflow : Overflow} {source : CandidateSource}
    {environment : String → Option String} {arguments : List String} {a : BenchmarkArguments} {config : Config} {tuning : Tuning}
    {record : Record} {w w' : World} {t₁ t₂ : Node}
    (hread : BenchmarkArguments.read environment arguments = .ok a) (hconfig : a.config = .ok config)
    (htuning : a.tuning = .ok tuning) (hlinks : tooManyLinks overflow config tuning = false)
    (hrun : runOn (runBenchmark overflow lap config
      ((defaultEngines tuning source).map Engine.adapter)) w = (.ok record, w'))
    (hsaved : (saveRecord record a.jsonOutput).run w'.tree = (.ok (), t₁))
    (hdrawn : (saveChart record a.chartOutput).run t₁ = (.ok (), t₂)) :
    (runOn (annBenchmark overflow source environment arguments) w).1 = .success ∧
      (runOn (annBenchmark overflow source environment arguments) w).2.tree = t₂ := by
  have hcommand : annBenchmark overflow source environment arguments =
      benchmark overflow source config tuning a.jsonOutput a.chartOutput := by
    rw [annBenchmark, hread]
    dsimp only
    rw [hconfig, htuning]
  rw [hcommand, benchmark, if_neg (Bool.eq_false_iff.1 hlinks), runOn_bind, hrun]
  dsimp only
  rw [publish, runOn_bind, runOn_printLines]
  dsimp only
  rw [runOn_bind, runOn_ofFiles, World.tree_print, hsaved]
  dsimp only
  rw [runOn_bind, runOn_say, runOn_bind, runOn_ofFiles, World.tree_print, hdrawn]
  exact ⟨rfl, rfl⟩

/-- Arguments for the smallest benchmark. -/
def smallArguments (json chart : String) : List String :=
  ["--n-samples", "1", "--n-dims", "1", "--n-queries", "1", "--top-k", "1", "--json-output", json,
    "--chart-output", chart]

def smallSettings (json chart : String) : BenchmarkArguments :=
  { BenchmarkArguments.default with
    samples := 1, dims := 1, queries := 1, topK := 1, jsonOutput := json, chartOutput := chart }

/-- The smallest benchmark, in an empty directory and with a stopwatch that stands still. -/
def smallRun (json chart : String) : ExitStatus × World :=
  runOn (annBenchmark .stops .exhaustive (fun _ => none) (smallArguments json chart))
    (.start (.directory []) fun _ => .zero false)

/-- It ends well when any record and its chart can be written. -/
theorem smallRun_done {json chart : String}
    (hread : BenchmarkArguments.read (fun _ => none) (smallArguments json chart) =
      .ok (smallSettings json chart))
    (hfiles : ∀ record, ∃ t₁ t₂, (saveRecord record json).run (.directory []) = (.ok (), t₁) ∧
      (saveChart record chart).run t₁ = (.ok (), t₂)) :
    ∃ record t₁ t₂, (saveRecord record json).run (.directory []) = (.ok (), t₁) ∧
      (saveChart record chart).run t₁ = (.ok (), t₂) ∧
      (smallRun json chart).1 = .success ∧ (smallRun json chart).2.tree = t₂ := by
  have hcount : Config.Countable ⟨1, 1, 1, 1, 42⟩ := ⟨by decide, by decide⟩
  obtain ⟨record, hrun, -, -⟩ := runOn_default rfl hcount .stops
    (.start (.directory []) fun _ => .zero false) (fun _ => ⟨rfl, nofun⟩) Tuning.default .exhaustive
  obtain ⟨t₁, t₂, hsaved, hdrawn⟩ := hfiles record
  exact ⟨record, t₁, t₂, hsaved, hdrawn,
    runOn_annBenchmark_done hread rfl rfl rfl hrun hsaved hdrawn⟩

/-- Two files in one directory. -/
theorem annBenchmark_files_apart :
    (smallRun "x" "y").1 = .success ∧
      Leaves .stops .exhaustive (fun _ => none) (smallArguments "x" "y")
        (.start (.directory []) fun _ => .zero false) (smallRun "x" "y").1
        (smallRun "x" "y").2.tree := by
  have hread : BenchmarkArguments.read (fun _ => none) (smallArguments "x" "y") =
      .ok (smallSettings "x" "y") := by rfl
  obtain ⟨_, _, _, -, -, hstatus, -⟩ := smallRun_done hread fun _ => ⟨_, _, rfl, rfl⟩
  exact ⟨hstatus, annBenchmark_files .stops .exhaustive _ (smallArguments "x" "y") [] _⟩

/-- A command that ends well does not always leave a record where its arguments say: with one path
for both files, the chart is there. -/
theorem annBenchmark_one_file :
    ¬ ∀ (overflow : Overflow) (source : CandidateSource) (environment : String → Option String)
        (arguments : List String) (entries : List (String × Node)) (laps : Nat → Binary64)
        (status : ExitStatus) (after : World),
      runOn (annBenchmark overflow source environment arguments)
        (.start (.directory entries) laps) = (status, after) →
      status.code = 0 →
      ∃ a record, BenchmarkArguments.read environment arguments = .ok a ∧
        ((loadRecord a.jsonOutput).run after.tree).1 = .ok record ∧
        record.config = ⟨a.samples, a.dims, a.queries, a.topK, a.seed⟩ ∧
        record.engineNames = [graphName, flatName] ∧
        Tree.read after.tree a.chartOutput = .ok record.chartBytes := by
  intro h
  have hread : BenchmarkArguments.read (fun _ => none) (smallArguments "x" "x") =
      .ok (smallSettings "x" "x") := by rfl
  obtain ⟨record, t₁, t₂, hsaved, hdrawn, hstatus, htree⟩ :=
    smallRun_done hread fun _ => ⟨_, _, rfl, rfl⟩
  obtain ⟨a, loaded, ha, hload, -⟩ := h .stops .exhaustive (fun _ => none) (smallArguments "x" "x") []
    (fun _ => .zero false) (smallRun "x" "x").1 (smallRun "x" "x").2 rfl (by rw [hstatus]; rfl)
  rw [hread] at ha
  cases ha
  have hplace := Tree.read_eq_ok_iff_at.1 (saveChart_read (FileProgram.run_root rfl hsaved) hdrawn)
  obtain ⟨place, hopens, -⟩ := hplace
  obtain ⟨e, he⟩ := loadRecord_of_together rfl hsaved hdrawn ⟨place, hopens, hopens⟩
  rw [htree] at hload
  change ((loadRecord "x").run t₂).1 = .ok loaded at hload
  rw [he] at hload
  cases hload

end VectorBench.CommandLine
