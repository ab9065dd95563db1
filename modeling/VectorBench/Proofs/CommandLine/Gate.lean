import VectorBench.CommandLine.Check
import VectorBench.Proofs.CommandLine.Runs
import VectorBench.Proofs.Verdict.Independence

/-!
# The gate on search times

What `check-ann-regression` ends with and writes, for all files and all arguments that can be read.
The stages follow one another: the baseline is loaded, the current record is loaded, the limit is
looked at, the engines are looked up.  The first one that fails is what the error stream reports;
when none does there is one verdict, and it decides the exit status and what is printed.

    status = 0 ↔ both files compare and no requested engine has regressed
    status = 1 ↔ both files compare and a requested engine has regressed
    status = 2 ↔ the files do not compare                              (checkAnnRegression_run)
-/

namespace VectorBench

/-! ## Lines of a verdict -/

variable {baseline current : Record} {engines : List String} {limit : Binary64} {v : Verdict}

/-- The lines of a verdict on the output stream. -/
theorem Verdict.linesOn_out (v : Verdict) :
    linesOn .out v.lines =
      v.comparisons.map comparisonLine ++ if v.passed then [passedLine] else [] := by
  have herr : linesOn .out (v.regressions.map fun c => (Stream.err, regressionLine c v.limit)) = [] :=
    linesOn_map_other (by decide) _ _
  rw [Verdict.lines, linesOn_append, linesOn_map_self]
  cases v.passed with
  | true => rfl
  | false => rw [if_neg Bool.false_ne_true, if_neg Bool.false_ne_true, herr]

/-- The lines of a verdict on the error stream. -/
theorem Verdict.linesOn_err (v : Verdict) :
    linesOn .err v.lines =
      if v.passed then [] else v.regressions.map fun c => regressionLine c v.limit := by
  have hout : linesOn .err (v.comparisons.map fun c => (Stream.out, comparisonLine c)) = [] :=
    linesOn_map_other (by decide) _ _
  rw [Verdict.lines, linesOn_append, hout, List.nil_append]
  cases v.passed with
  | true => rfl
  | false => rw [if_neg Bool.false_ne_true, if_neg Bool.false_ne_true, linesOn_map_self]

/-- The current search time of an engine is more than `limit` times its baseline. -/
def Regressed (baseline current : Record) (limit : Binary64) (engine : String) : Prop :=
  ∃ x y, baseline.SearchTime engine x ∧ current.SearchTime engine y ∧
    limit.lt (searchRatio x y) = true

theorem Compares.regressed_iff {c : Comparison} (h : Compares baseline current limit c) :
    Regressed baseline current limit c.engine ↔ c.exceeded = true := by
  rw [h.exceeded, h.ratio_eq]
  constructor
  · rintro ⟨x, y, hx, hy, hlt⟩
    rw [h.baseline.unique hx, h.current.unique hy]
    exact hlt
  · intro hlt
    exact ⟨_, _, h.baseline, h.current, hlt⟩

/-- A verdict is passed when no engine that was asked for has regressed. -/
theorem Judges.passed_iff (h : Judges baseline current engines limit v) :
    v.passed = true ↔ ∀ e ∈ engines, ¬ Regressed baseline current limit e := by
  rw [h.passed, List.eq_nil_iff_forall_not_mem]
  constructor
  · intro hnone e he hregressed
    obtain ⟨c, hc, rfl⟩ := List.mem_map.1 ((h.engines.mem_iff e).2 he)
    have hexceeded := (h.comparisons c hc).regressed_iff.1 hregressed
    exact hnone c ((h.regressions.2 c).2 ⟨hc, hexceeded⟩)
  · intro hnone c hc
    obtain ⟨hmem, hexceeded⟩ := (h.regressions.2 c).1 hc
    have he : c.engine ∈ engines := (h.engines.mem_iff _).1 (List.mem_map.2 ⟨c, hmem, rfl⟩)
    exact hnone _ he ((h.comparisons c hmem).regressed_iff.2 hexceeded)

namespace CommandLine

/-! ## Stages -/

/-- Two files that can be compared: both hold records, the limit is good and both records have every
engine. -/
structure Compared (tree : Node) (a : CheckArguments) (base now : Record) : Prop where
  baseline : ((loadRecord a.baseline).run tree).1 = .ok base
  current : ((loadRecord a.current).run tree).1 = .ok now
  limit : ¬ BadLimit a.limit
  engines : ∀ e ∈ a.requested, InBoth base now e

/-- The first stage that fails, with what is said of it. -/
inductive StageFault (tree : Node) (a : CheckArguments) : String → Prop
  | baseline {e : StoreError} (h : ((loadRecord a.baseline).run tree).1 = .error e) :
      StageFault tree a ("Unable to load baseline " ++ a.baseline ++ ": " ++ e.message)
  | current {base : Record} {e : StoreError}
      (hbase : ((loadRecord a.baseline).run tree).1 = .ok base)
      (h : ((loadRecord a.current).run tree).1 = .error e) :
      StageFault tree a ("Unable to load current " ++ a.current ++ ": " ++ e.message)
  | limit {base now : Record} (hbase : ((loadRecord a.baseline).run tree).1 = .ok base)
      (hnow : ((loadRecord a.current).run tree).1 = .ok now) (h : BadLimit a.limit) :
      StageFault tree a
        ("Regression check failed: " ++ (CheckError.invalidLimit a.limit).message)
  | engine {base now : Record} {engine : String} {side : Side}
      (hbase : ((loadRecord a.baseline).run tree).1 = .ok base)
      (hnow : ((loadRecord a.current).run tree).1 = .ok now) (hlimit : ¬ BadLimit a.limit)
      (h : FirstMissing base now a.requested engine side) :
      StageFault tree a
        ("Regression check failed: " ++ (CheckError.missingEngine engine side).message)

section

variable {tree : Node} {a : CheckArguments} {base now base' now' : Record} {message : String}

theorem Compared.unique (h : Compared tree a base now) (h' : Compared tree a base' now') :
    base = base' ∧ now = now' :=
  ⟨Except.ok.inj (h.baseline.symm.trans h'.baseline),
    Except.ok.inj (h.current.symm.trans h'.current)⟩

/-- Files that a stage refuses cannot be compared. -/
theorem StageFault.not_compared (h : StageFault tree a message) : ¬ Compared tree a base now := by
  intro hcompared
  cases h with
  | baseline h =>
    rw [hcompared.baseline] at h
    cases h
  | current hbase h =>
    rw [hcompared.current] at h
    cases h
  | limit hbase hnow h => exact hcompared.limit h
  | engine hbase hnow hlimit h =>
    obtain rfl := Except.ok.inj (hbase.symm.trans hcompared.baseline)
    obtain rfl := Except.ok.inj (hnow.symm.trans hcompared.current)
    exact h.not_inBoth hcompared.engines

end

theorem runOn_loadRecord (path : String) (w : World) :
    runOn (ofFiles (loadRecord path)) w = (((loadRecord path).run w.tree).1, w) := by
  rw [runOn_ofFiles, run_loadRecord]

theorem runOn_announce (v : Verdict) (w : World) :
    runOn (announce v) w = (if v.passed then .success else .failure, w.print v.lines) := by
  rw [announce, runOn_bind, runOn_printLines]
  rfl

/-- A check ends at the first stage that fails, or it prints the verdict. -/
theorem runOn_checkFiles (a : CheckArguments) (w : World) :
    (∃ message, StageFault w.tree a message ∧
      runOn (checkFiles a.baseline a.current a.requested a.limit) w =
        (.misuse, w.print [(.err, message)])) ∨
    ∃ base now v, Compared w.tree a base now ∧ Judges base now a.requested a.limit v ∧
      runOn (checkFiles a.baseline a.current a.requested a.limit) w =
        (if v.passed then .success else .failure, w.print v.lines) := by
  rw [checkFiles, runOn_bind, runOn_loadRecord]
  cases hbase : ((loadRecord a.baseline).run w.tree).1 with
  | error e => exact .inl ⟨_, .baseline hbase, runOn_fail _ _ w⟩
  | ok base =>
    simp only [runOn_bind, runOn_loadRecord]
    cases hnow : ((loadRecord a.current).run w.tree).1 with
    | error e => exact .inl ⟨_, .current hbase hnow, runOn_fail _ _ w⟩
    | ok now =>
      rcases checkRegression_cases base now a.requested a.limit with
        ⟨hbad, hcheck⟩ | ⟨hgood, e, side, hfirst, hcheck⟩ | ⟨hgood, hall, v, hv, hcheck⟩
      · simp only [hcheck]
        exact .inl ⟨_, .limit hbase hnow hbad, runOn_fail _ _ w⟩
      · simp only [hcheck]
        exact .inl ⟨_, .engine hbase hnow hgood hfirst, runOn_fail _ _ w⟩
      · simp only [hcheck]
        exact .inr ⟨base, now, v, ⟨hbase, hnow, hgood, hall⟩, hv, runOn_announce v w⟩

/-! ## The gate -/

/-- What a run of the command says of two files. -/
structure GateReport (tree : Node) (a : CheckArguments) (status : ExitStatus) (out err : String) :
    Prop where
  success : status.code = 0 ↔
    ∃ base now, Compared tree a base now ∧ ∀ e ∈ a.requested, ¬ Regressed base now a.limit e
  failure : status.code = 1 ↔
    ∃ base now, Compared tree a base now ∧ ∃ e ∈ a.requested, Regressed base now a.limit e
  misuse : status.code = 2 ↔ ¬ ∃ base now, Compared tree a base now
  fault : status.code = 2 →
    out = "" ∧ ∃ message, StageFault tree a message ∧ err = message ++ "\n"
  verdict : status.code ≠ 2 → ∃ base now v, Compared tree a base now ∧
    Judges base now a.requested a.limit v ∧
    (status.code = 1 → out = textOfLines (v.comparisons.map comparisonLine) ∧
      err = textOfLines (v.regressions.map fun c => regressionLine c a.limit)) ∧
    (status.code = 0 → out = textOfLines (v.comparisons.map comparisonLine ++ [passedLine]) ∧
      err = "")

section

variable {tree : Node} {a : CheckArguments} {base now : Record} {message : String} {v : Verdict}

theorem StageFault.report (h : StageFault tree a message) :
    GateReport tree a .misuse "" (message ++ "\n") where
  success := iff_of_false (by decide) fun ⟨_, _, hcompared, _⟩ => h.not_compared hcompared
  failure := iff_of_false (by decide) fun ⟨_, _, hcompared, _⟩ => h.not_compared hcompared
  misuse := iff_of_true rfl fun ⟨_, _, hcompared⟩ => h.not_compared hcompared
  fault _ := ⟨rfl, message, h, rfl⟩
  verdict hstatus := absurd rfl hstatus

/-- Two files hold two records, so what is true of some records is true of these. -/
theorem Compared.exists_iff (h : Compared tree a base now) {P : Record → Record → Prop} :
    (∃ base now, Compared tree a base now ∧ P base now) ↔ P base now := by
  constructor
  · rintro ⟨base', now', h', hP⟩
    obtain ⟨rfl, rfl⟩ := h.unique h'
    exact hP
  · exact fun hP => ⟨base, now, h, hP⟩

theorem Compared.report (h : Compared tree a base now) (hv : Judges base now a.requested a.limit v) :
    GateReport tree a (if v.passed then .success else .failure) (textOfLines (linesOn .out v.lines))
      (textOfLines (linesOn .err v.lines)) := by
  have hpassed := hv.passed_iff
  have hfailed : v.passed = false ↔ ∃ e ∈ a.requested, Regressed base now a.limit e := by
    rw [← Bool.not_eq_true, hpassed]
    simp
  have hexists : ∃ base now, Compared tree a base now := ⟨base, now, h⟩
  rw [Verdict.linesOn_out, Verdict.linesOn_err, hv.limit]
  cases hstatus : v.passed with
  | true =>
    refine ⟨?_, ?_, iff_of_false (by decide) fun hnot => hnot hexists, nofun, fun _ => ?_⟩
    · rw [h.exists_iff]
      exact iff_of_true rfl (hpassed.1 hstatus)
    · rw [h.exists_iff, ← hfailed, hstatus]
      exact iff_of_false (by decide) nofun
    · exact ⟨base, now, v, h, hv, nofun, fun _ => ⟨rfl, rfl⟩⟩
  | false =>
    refine ⟨?_, ?_, iff_of_false (by decide) fun hnot => hnot hexists, nofun, fun _ => ?_⟩
    · rw [h.exists_iff, ← hpassed, hstatus]
      exact iff_of_false (by decide) nofun
    · rw [h.exists_iff]
      exact iff_of_true rfl (hfailed.1 hstatus)
    · refine ⟨base, now, v, h, hv, fun _ => ⟨?_, rfl⟩, nofun⟩
      rw [if_neg Bool.false_ne_true, List.append_nil]

end

/-- A world without output after some lines. -/
theorem print_start (tree : Node) (laps : Nat → Binary64) (lines : List (Stream × String)) :
    (World.start tree laps).print lines =
      { World.start tree laps with
        out := textOfLines (linesOn .out lines), err := textOfLines (linesOn .err lines) } := by
  simp [World.print, World.start]

/-- For all files and for all arguments that can be read, the command leaves the files as they are
and ends with status 0 when no requested engine has regressed, with status 1 when one has, and with
status 2 when the files cannot be compared.  Then the error of the first stage that fails is all that
it writes; otherwise it writes the lines of the verdict. -/
theorem checkAnnRegression_run {environment : String → Option String} {arguments : List String}
    {a : CheckArguments} (h : CheckArguments.read environment arguments = .ok a) (tree : Node)
    (laps : Nat → Binary64) :
    ∃ status out err,
      runOn (checkAnnRegression environment arguments) (.start tree laps) =
        (status, { World.start tree laps with out, err }) ∧
      GateReport tree a status out err := by
  have hrun : runOn (checkAnnRegression environment arguments) (.start tree laps) =
      runOn (checkFiles a.baseline a.current a.requested a.limit) (.start tree laps) := by
    rw [checkAnnRegression, h]
  rw [hrun]
  rcases runOn_checkFiles a (.start tree laps) with
    ⟨message, hfault, hends⟩ | ⟨base, now, v, hcompared, hv, hends⟩
  · refine ⟨_, _, _, hends.trans (by rw [print_start]), ?_⟩
    have hline : textOfLines (linesOn .err [(.err, message)]) = message ++ "\n" := by
      simp [linesOn]
    rw [hline]
    exact hfault.report
  · exact ⟨_, _, _, hends.trans (by rw [print_start]), hcompared.report hv⟩

/-- The two default engines, both built and searched in one second but for the last search. -/
def timedRecord (slow : Bool) : Record :=
  let second : Binary64 := .ofBits .double 0x3ff0000000000000
  let last : Binary64 := if slow then .ofBits .double 0x4000000000000000 else second
  ⟨⟨1, 1, 1, 1, 0⟩, [⟨graphName, second, second⟩, ⟨flatName, second, last⟩], by
    cases slow <;> decide⟩

/-- One second against two, where one and a half is the limit. -/
theorem checkAnnRegression_run_slower :
    let arguments := ["--baseline", "old.json", "--current=new.json"]
    let a : CheckArguments := ⟨"old.json", "new.json", defaultLimit, []⟩
    let tree := Node.directory
      [("old.json", .file (timedRecord false).bytes), ("new.json", .file (timedRecord true).bytes)]
    CheckArguments.read (fun _ => none) arguments = .ok a ∧
      ∃ status out err,
        runOn (checkAnnRegression (fun _ => none) arguments) (.start tree fun _ => .zero false) =
          (status, { World.start tree fun _ => .zero false with out, err }) ∧
        GateReport tree a status out err ∧ status.code = 1 := by
  intro arguments a tree
  have hread : CheckArguments.read (fun _ => none) arguments = .ok a := by rfl
  obtain ⟨status, out, err, hrun, hreport⟩ :=
    checkAnnRegression_run hread tree fun _ => .zero false
  refine ⟨hread, status, out, err, hrun, hreport, hreport.failure.2 ?_⟩
  have hold : Tree.read tree "old.json" = .ok (timedRecord false).bytes := rfl
  have hnew : Tree.read tree "new.json" = .ok (timedRecord true).bytes := rfl
  refine ⟨timedRecord false, timedRecord true, ⟨?_, ?_, ?_, ?_⟩, flatName, by decide, ?_⟩
  · rw [run_loadRecord, hold]
    exact recordOfBytes_bytes _
  · rw [run_loadRecord, hnew]
    exact recordOfBytes_bytes _
  · rw [← badLimit_iff]
    decide
  · unfold InBoth
    decide
  · refine ⟨_, _, Record.searchTime_of_metric? rfl, Record.searchTime_of_metric? rfl, ?_⟩
    decide +kernel

end CommandLine

end VectorBench
