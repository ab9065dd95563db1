import Mathlib.Data.List.DropRight
import Mathlib.Data.Prod.Lex
import VectorBench.Proofs.Record.SearchTime

/-!
# What is wrong first

Everything that may be wrong with the parts of a record, each fault at its place: the counts of the
configuration, then the measurements from left to right, and in a measurement its name, its two
durations and a name that came before, in this order.  Parts are refused for the fault at the first
place, and make a record if there is none.

    Record.ofParts config metrics = .error e ↔ FirstViolation config metrics e
    (∃ r, Record.ofParts config metrics = .ok r) ↔ Fit config metrics
    metrics.filter (·.engine == name) = (r.metric? name).toList                 (ofParts_outcome)
-/

namespace VectorBench

/-! ## Names with nothing in them -/

def trimmed (text : List Char) : List Char :=
  (text.dropWhile isWhiteSpace).rdropWhile isWhiteSpace

theorem isBlank_iff_trimmed {text : String} : isBlank text = true ↔ trimmed text.toList = [] := by
  rw [isBlank, List.all_eq_true, trimmed, List.rdropWhile_eq_nil_iff]
  constructor
  · intro h c hc
    exact h c ((List.dropWhile_sublist _).subset hc)
  · intro h c hc
    rw [← @List.takeWhile_append_dropWhile _ isWhiteSpace text.toList] at hc
    rcases List.mem_append.1 hc with hc | hc
    · exact List.mem_takeWhile_imp hc
    · exact h c hc

/-! ## Faults and their places -/

/-- A count that is zero, at its place among the counts. -/
inductive Config.Fault (config : Config) : Nat → ValidationError → Prop where
  | zero {look : Nat} {count : Count} (hlook : Count.all[look]? = some count)
      (h : count.of config = 0) : Fault config look (.zeroCount count)

/-- What is wrong with a measurement that comes behind others, at its place among the faults that a
measurement may have. -/
inductive Measurement.Fault (before : List Measurement) (m : Measurement) :
    Nat → ValidationError → Prop where
  | blank (h : trimmed m.engine.toList = []) : Fault before m 0 .blankEngine
  | build (h : ¬ IsSeconds m.buildSeconds) :
      Fault before m 1 (.invalidDuration m.engine .build m.buildSeconds)
  | search (h : ¬ IsSeconds m.searchSeconds) :
      Fault before m 2 (.invalidDuration m.engine .search m.searchSeconds)
  | repeated (h : ∃ earlier ∈ before, earlier.engine = m.engine) :
      Fault before m 3 (.duplicateEngine m.engine)

/-- What is wrong with measurements that come behind others: a fault of the one at an index. -/
def FaultAt (before metrics : List Measurement) (index look : Nat) (e : ValidationError) : Prop :=
  ∃ m, metrics[index]? = some m ∧ m.Fault (before ++ metrics.take index) look e

/-- What is wrong with the parts of a record, and where.  Places are ordered lexicographically, and
those in the configuration come before those in the measurements. -/
inductive Violation (config : Config) (metrics : List Measurement) :
    ℕ ×ₗ ℕ → ValidationError → Prop where
  | config {look : Nat} {e : ValidationError} (h : config.Fault look e) :
      Violation config metrics (toLex (0, look)) e
  | measurement {index look : Nat} {e : ValidationError} (h : FaultAt [] metrics index look e) :
      Violation config metrics (toLex (index + 1, look)) e

/-- The error is what is wrong at the first place where anything is. -/
def FirstViolation (config : Config) (metrics : List Measurement) (e : ValidationError) : Prop :=
  ∃ place, Violation config metrics place e ∧
    ∀ place' e', Violation config metrics place' e' → place ≤ place'

/-! ## One fault at a place -/

section

variable {config : Config} {metrics before : List Measurement} {m : Measurement}
  {index look : Nat} {e e' : ValidationError}

theorem Config.Fault.unique (h : config.Fault look e) (h' : config.Fault look e') : e = e' := by
  cases h with
  | zero hlook _ =>
    cases h' with
    | zero hlook' _ =>
      rw [hlook] at hlook'
      rw [Option.some.inj hlook']

theorem Measurement.Fault.unique (h : m.Fault before look e) (h' : m.Fault before look e') :
    e = e' := by
  cases h <;> cases h' <;> rfl

theorem FaultAt.unique (h : FaultAt before metrics index look e)
    (h' : FaultAt before metrics index look e') : e = e' := by
  obtain ⟨m, hm, hfault⟩ := h
  obtain ⟨m', hm', hfault'⟩ := h'
  rw [hm] at hm'
  cases hm'
  exact hfault.unique hfault'

theorem Violation.unique {place : ℕ ×ₗ ℕ} (h : Violation config metrics place e)
    (h' : Violation config metrics place e') : e = e' := by
  generalize hplace : place = place' at h'
  cases h with
  | config h =>
    cases h' with
    | config h' =>
      cases hplace
      exact h.unique h'
    | measurement h' => cases hplace
  | measurement h =>
    cases h' with
    | config h' => cases hplace
    | measurement h' =>
      cases hplace
      exact h.unique h'

theorem FirstViolation.unique (h : FirstViolation config metrics e)
    (h' : FirstViolation config metrics e') : e = e' := by
  obtain ⟨place, hplace, hleast⟩ := h
  obtain ⟨place', hplace', hleast'⟩ := h'
  have heq : place = place' := le_antisymm (hleast _ _ hplace') (hleast' _ _ hplace)
  subst heq
  exact hplace.unique hplace'

end

/-! ## Each check stops at the first fault -/

theorem Config.check_cases (config : Config) :
    (config.check = .ok () ∧ ∀ look e, ¬ config.Fault look e) ∨
      ∃ look e, config.check = .error e ∧ config.Fault look e ∧
        ∀ look' e', config.Fault look' e' → look ≤ look' := by
  rw [check]
  cases hzero : config.zeroCount? with
  | none =>
    refine .inl ⟨rfl, ?_⟩
    rintro _ _ ⟨hlook, h⟩
    exact List.find?_eq_none.1 hzero _ (List.mem_of_getElem? hlook) (beq_iff_eq.2 h)
  | some count =>
    obtain ⟨hcount, look, hlt, hlook, hnone⟩ := List.find?_eq_some_iff_getElem.1 hzero
    refine .inr ⟨look, _, rfl, .zero (List.getElem?_eq_some_iff.2 ⟨hlt, hlook⟩)
      (eq_of_beq hcount), ?_⟩
    rintro look' _ ⟨hlook', h⟩
    rw [← Nat.not_lt]
    intro hbefore
    obtain ⟨hlt', rfl⟩ := List.getElem?_eq_some_iff.1 hlook'
    exact absurd (beq_iff_eq.2 h) (by simpa using hnone look' hbefore)

section

variable {m : Measurement} {before : List Measurement} {e : ValidationError}

theorem Measurement.badDuration?_of_build (h : ¬ IsSeconds m.buildSeconds) :
    m.badDuration? = some .build := by
  rw [← isDuration_iff, Bool.not_eq_true] at h
  simp [badDuration?, Duration.of, h]

theorem Measurement.badDuration?_of_search (hbuild : IsSeconds m.buildSeconds)
    (h : ¬ IsSeconds m.searchSeconds) : m.badDuration? = some .search := by
  rw [← isDuration_iff, Bool.not_eq_true] at h
  rw [← isDuration_iff] at hbuild
  simp [badDuration?, Duration.of, h, hbuild]

theorem Measurement.Fault.one_le {look : Nat} (h : m.Fault before look e)
    (hnamed : ¬ isBlank m.engine = true) : 1 ≤ look := by
  cases h with
  | blank h => exact absurd (isBlank_iff_trimmed.2 h) hnamed
  | build | search | repeated => decide

theorem Measurement.Fault.two_le {look : Nat} (h : m.Fault before look e)
    (hnamed : ¬ isBlank m.engine = true) (hbuild : IsSeconds m.buildSeconds) : 2 ≤ look := by
  cases h with
  | blank h => exact absurd (isBlank_iff_trimmed.2 h) hnamed
  | build h => exact absurd hbuild h
  | search | repeated => decide

/-- A measurement that is refused by itself is refused for its first fault, whatever came before. -/
theorem Measurement.fault_of_check (h : m.check = .error e) :
    ∃ look, m.Fault before look e ∧ ∀ look' e', m.Fault before look' e' → look ≤ look' := by
  rw [check] at h
  by_cases hblank : isBlank m.engine = true
  · rw [if_pos hblank] at h
    cases h
    exact ⟨0, .blank (isBlank_iff_trimmed.1 hblank), fun _ _ _ => Nat.zero_le _⟩
  rw [if_neg hblank] at h
  by_cases hbuild : IsSeconds m.buildSeconds
  · by_cases hsearch : IsSeconds m.searchSeconds
    · have hok := measurementCheck_eq_ok_iff.2 ⟨Bool.eq_false_iff.2 hblank, hbuild, hsearch⟩
      rw [check, if_neg hblank, h] at hok
      cases hok
    · rw [badDuration?_of_search hbuild hsearch] at h
      cases h
      exact ⟨2, .search hsearch, fun _ _ h => h.two_le hblank hbuild⟩
  · rw [badDuration?_of_build hbuild] at h
    cases h
    exact ⟨1, .build hbuild, fun _ _ h => h.one_le hblank⟩

/-- A measurement with nothing wrong in itself can only have a name that came before. -/
theorem Measurement.Fault.of_check (hcheck : m.check = .ok ()) {look : Nat}
    (h : m.Fault before look e) : look = 3 ∧ ∃ earlier ∈ before, earlier.engine = m.engine := by
  obtain ⟨hnamed, hbuild, hsearch⟩ := measurementCheck_eq_ok_iff.1 hcheck
  cases h with
  | blank h => exact absurd (isBlank_iff_trimmed.2 h) (Bool.eq_false_iff.1 hnamed)
  | build h => exact absurd hbuild h
  | search h => exact absurd hsearch h
  | repeated h => exact ⟨rfl, h⟩

end

/-- The names `seen` are those of the measurements that came before. -/
def SeenBefore (seen : List String) (before : List Measurement) : Prop :=
  ∀ name, name ∈ seen ↔ ∃ earlier ∈ before, earlier.engine = name

theorem SeenBefore.next {seen : List String} {before : List Measurement}
    (h : SeenBefore seen before) (m : Measurement) :
    SeenBefore (m.engine :: seen) (before ++ [m]) := by
  intro name
  rw [List.mem_cons, h name]
  constructor
  · rintro (rfl | ⟨earlier, hmem, hname⟩)
    · exact ⟨m, List.mem_append_right _ List.mem_cons_self, rfl⟩
    · exact ⟨earlier, List.mem_append_left _ hmem, hname⟩
  · rintro ⟨earlier, hmem, hname⟩
    rcases List.mem_append.1 hmem with hmem | hmem
    · exact .inr ⟨earlier, hmem, hname⟩
    · rw [List.mem_singleton.1 hmem] at hname
      exact .inl hname.symm

/-- One measurement is passed over, or ends the check for its first fault. -/
theorem checkMeasurements_cons_cases {seen : List String} {before : List Measurement}
    (hseen : SeenBefore seen before) (m : Measurement) (rest : List Measurement) :
    (checkMeasurements seen (m :: rest) = checkMeasurements (m.engine :: seen) rest ∧
        ∀ look e, ¬ m.Fault before look e) ∨
      ∃ look e, checkMeasurements seen (m :: rest) = .error e ∧ m.Fault before look e ∧
        ∀ look' e', m.Fault before look' e' → look ≤ look' := by
  rw [checkMeasurements]
  cases hcheck : m.check with
  | error e =>
    obtain ⟨look, hfault, hleast⟩ := Measurement.fault_of_check hcheck
    exact .inr ⟨look, e, rfl, hfault, hleast⟩
  | ok _ =>
    dsimp only
    by_cases hold : m.engine ∈ seen
    · rw [if_pos hold]
      refine .inr ⟨3, _, rfl, .repeated ((hseen _).1 hold), fun look' e' h => ?_⟩
      exact Nat.le_of_eq (h.of_check hcheck).1.symm
    · rw [if_neg hold]
      exact .inl ⟨rfl, fun look e h => hold ((hseen _).2 (h.of_check hcheck).2)⟩

/-! ## All checks stop at the first fault -/

/-- A fault is one of the first measurement or one behind it. -/
theorem faultAt_cons_iff {before rest : List Measurement} {m : Measurement} {index look : Nat}
    {e : ValidationError} :
    FaultAt before (m :: rest) index look e ↔
      (index = 0 ∧ m.Fault before look e) ∨
        ∃ later, index = later + 1 ∧ FaultAt (before ++ [m]) rest later look e := by
  cases index with
  | zero => simp [FaultAt]
  | succ later => simp [FaultAt]

theorem checkMeasurements_cases {seen : List String} {before : List Measurement}
    (hseen : SeenBefore seen before) (rest : List Measurement) :
    (checkMeasurements seen rest = .ok () ∧ ∀ index look e, ¬ FaultAt before rest index look e) ∨
      ∃ index look e, checkMeasurements seen rest = .error e ∧ FaultAt before rest index look e ∧
        ∀ index' look' e', FaultAt before rest index' look' e' →
          toLex (index, look) ≤ toLex (index', look') := by
  -- a measurement that is passed over joins those before, and the places behind it move up by one
  induction rest generalizing seen before with
  | nil =>
    refine .inl ⟨rfl, ?_⟩
    rintro index look e ⟨m, hm, -⟩
    cases hm
  | cons m rest ih =>
    simp only [faultAt_cons_iff, Prod.Lex.toLex_le_toLex]
    rcases checkMeasurements_cons_cases hseen m rest with
      ⟨hnext, hnone⟩ | ⟨look, e, herror, hfault, hleast⟩
    · rw [hnext]
      rcases ih (hseen.next m) with ⟨hok, hrest⟩ | ⟨index, look, e, herror, hfault, hleast⟩
      · refine .inl ⟨hok, ?_⟩
        rintro index look e (⟨-, h⟩ | ⟨later, -, h⟩)
        · exact hnone look e h
        · exact hrest later look e h
      · refine .inr ⟨index + 1, look, e, herror, .inr ⟨index, rfl, hfault⟩, ?_⟩
        rintro index' look' e' (⟨-, h⟩ | ⟨later, rfl, h⟩)
        · exact absurd h (hnone look' e')
        · have hle := Prod.Lex.toLex_le_toLex.1 (hleast later look' e' h)
          omega
    · refine .inr ⟨0, look, e, herror, .inl ⟨rfl, hfault⟩, ?_⟩
      rintro index' look' e' (⟨rfl, h⟩ | ⟨later, rfl, -⟩)
      · exact .inr ⟨rfl, hleast look' e' h⟩
      · exact .inl (Nat.succ_pos later)

/-- Parts in which nothing is wrong pass; all others are refused for what is wrong first. -/
theorem checkParts_cases (config : Config) (metrics : List Measurement) :
    (checkParts config metrics = .ok () ∧ ∀ place e, ¬ Violation config metrics place e) ∨
      ∃ e, checkParts config metrics = .error e ∧ FirstViolation config metrics e := by
  rw [checkParts]
  rcases config.check_cases with ⟨hconfig, hcounts⟩ | ⟨look, e, herror, hfault, hleast⟩
  · rw [hconfig]
    dsimp only
    have hseen : SeenBefore [] [] := by simp [SeenBefore]
    rcases checkMeasurements_cases hseen metrics with
      ⟨hok, hnone⟩ | ⟨index, look, e, herror, hfault, hleast⟩
    · refine .inl ⟨hok, fun place e h => ?_⟩
      cases h with
      | config h => exact hcounts _ _ h
      | measurement h => exact hnone _ _ _ h
    · refine .inr ⟨e, herror, _, .measurement hfault, fun place' e' h => ?_⟩
      cases h with
      | config h => exact absurd h (hcounts _ _)
      | measurement h =>
        have hle := hleast _ _ _ h
        rw [Prod.Lex.toLex_le_toLex] at hle ⊢
        omega
  · rw [herror]
    refine .inr ⟨e, rfl, _, .config hfault, fun place' e' h => ?_⟩
    cases h with
    | config h => exact Prod.Lex.toLex_le_toLex.2 (.inr ⟨rfl, hleast _ _ h⟩)
    | measurement h => exact Prod.Lex.toLex_le_toLex.2 (.inl (Nat.succ_pos _))

/-! ## Records -/

/-- Where no name comes twice, looking a name up finds all there is under it. -/
theorem filter_engine_eq {metrics : List Measurement}
    (hdistinct : (metrics.map (·.engine)).Nodup) (name : String) :
    metrics.filter (fun m => m.engine == name) =
      (metrics.find? fun m => m.engine == name).toList := by
  induction metrics with
  | nil => rfl
  | cons m metrics ih =>
    rw [List.map_cons, List.nodup_cons] at hdistinct
    simp only [List.filter_cons, List.find?_cons]
    by_cases hname : (m.engine == name) = true
    · have hnone : metrics.filter (fun m => m.engine == name) = [] := by
        rw [List.filter_eq_nil_iff]
        intro other hother heq
        refine hdistinct.1 (List.mem_map.2 ⟨other, hother, ?_⟩)
        rw [eq_of_beq heq, eq_of_beq hname]
      simp only [hname, if_true, hnone, Option.toList_some]
    · simp only [hname, Bool.false_eq_true, if_false, ih hdistinct.2]

namespace Record

/-- A record lists the given measurements, in the order in which they were given: by themselves, by
their names, by their search times, and one by one under their names. -/
structure Shows (r : Record) (config : Config) (metrics : List Measurement) : Prop where
  config_eq : r.config = config
  metrics_eq : r.metrics = metrics
  engineNames_eq : r.engineNames = metrics.map (·.engine)
  searchSeries_eq : r.searchSeries = metrics.map fun m => (m.engine, m.searchSeconds)
  metric?_eq_some : ∀ name m, r.metric? name = some m ↔ m ∈ metrics ∧ m.engine = name
  metric?_unique : ∀ name, metrics.filter (fun m => m.engine == name) = (r.metric? name).toList

theorem shows_self (r : Record) : r.Shows r.config r.metrics where
  config_eq := rfl
  metrics_eq := rfl
  engineNames_eq := rfl
  searchSeries_eq := rfl
  metric?_eq_some name m := by
    rw [← Option.mem_toList, metric?, ← filter_engine_eq (checkParts_eq_ok_iff.1 r.fit).distinct,
      List.mem_filter, beq_iff_eq]
  metric?_unique := filter_engine_eq (checkParts_eq_ok_iff.1 r.fit).distinct

/-- The law of making records.  A name is blank if nothing is left of it between the white space at
its ends.  Parts make a record exactly if they fit, and are refused for what is wrong at the first
place otherwise; the record then shows them in the order given, each under its name. -/
theorem ofParts_outcome (config : Config) (metrics : List Measurement) :
    (∀ text, isBlank text = true ↔ trimmed text.toList = []) ∧
      ((∃ r, ofParts config metrics = .ok r) ↔ Fit config metrics) ∧
      (∀ e, ofParts config metrics = .error e ↔ FirstViolation config metrics e) ∧
      ∀ r, ofParts config metrics = .ok r → r.Shows config metrics := by
  refine ⟨fun _ => isBlank_iff_trimmed, ?_, fun e => ?_, fun r hr => ?_⟩
  · constructor
    · rintro ⟨r, hr⟩
      obtain ⟨rfl, rfl⟩ := ofParts_eq_ok hr
      exact checkParts_eq_ok_iff.1 r.fit
    · exact fun h => ⟨_, ofParts_of_fit h⟩
  · rcases checkParts_cases config metrics with ⟨hok, hnone⟩ | ⟨e', herror, hfirst⟩
    · rw [ofParts_of_fit (checkParts_eq_ok_iff.1 hok)]
      refine iff_of_false (fun h => by cases h) ?_
      rintro ⟨place, h, -⟩
      exact hnone place e h
    · rw [ofParts_of_check_error herror, Except.error.injEq]
      exact ⟨fun h => h ▸ hfirst, hfirst.unique⟩
  · obtain ⟨rfl, rfl⟩ := ofParts_eq_ok hr
    exact r.shows_self

/-- A repeated name with an infinite search time is refused for the time, although a name is there
twice and a blank one follows; the first of the three alone, with its negative zero, is a record. -/
theorem ofParts_outcome_interleaved :
    FirstViolation .default [⟨"a", .zero true, .zero false⟩, ⟨"a", .zero false, .infinity false⟩,
        ⟨" ", .zero false, .zero false⟩] (.invalidDuration "a" .search (.infinity false)) ∧
      ∃ r, ofParts .default [⟨"a", .zero true, .zero false⟩] = .ok r ∧
        r.metric? "a" = some ⟨"a", .zero true, .zero false⟩ ∧ r.engineNames = ["a"] := by
  constructor
  · exact ((ofParts_outcome _ _).2.2.1 _).1 (by decide)
  · obtain ⟨-, hiff, -, hshows⟩ := ofParts_outcome .default [⟨"a", .zero true, .zero false⟩]
    obtain ⟨r, hr⟩ := hiff.2 (checkParts_eq_ok_iff.1 (by decide))
    have h := hshows r hr
    exact ⟨r, hr, (h.metric?_eq_some "a" _).2 ⟨List.mem_cons_self, rfl⟩, h.engineNames_eq⟩

end Record

end VectorBench
