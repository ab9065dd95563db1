import VectorBench.Proofs.CommandLine.Given
import VectorBench.Proofs.CommandLine.Outputs
import VectorBench.Proofs.Engine.Budget

/-!
# Which settings are accepted

The command `ann-benchmark` accepts the texts given for its settings when each is a numeral in the
range of its setting and the bounds of the search are in order, where a bound that is not given is
the default.  Otherwise it ends with status 2.  Accepted settings need no repair later: the
configuration passes its check, and a search looks at as many candidates as the settings say.

    (∃ config tuning, Accepts arguments config tuning) ↔ Acceptable given
    status.code = 2 ↔ ¬ Acceptable given
    Accepts arguments config tuning → Sound given config tuning          (annBenchmark_settings)
-/

namespace VectorBench.CommandLine

open BenchmarkArguments

/-- What a setting comes to: the number that is given for it, or its default. -/
def Effective (given : List Given) (s : Setting) (n : Nat) : Prop :=
  (∃ g ∈ given, g.setting = s ∧ IsNumeral g.text n) ∨
    (∀ g ∈ given, g.setting ≠ s) ∧ n = (s.of .default .default).toNat

structure Acceptable (given : List Given) : Prop where
  once : (given.map Given.setting).Nodup
  numerals : ∀ g ∈ given, ∃ n, IsNumeral g.text n ∧ g.setting.lowest ≤ n ∧ n < 2 ^ 64
  ordered : ∀ least most, Effective given .least least → Effective given .most most → least ≤ most

/-- The arguments are taken for a configuration and a tuning. -/
def Accepts (arguments : List String) (config : Config) (tuning : Tuning) : Prop :=
  ∃ a, BenchmarkArguments.read (fun _ => none) arguments = .ok a ∧ a.config = .ok config ∧
    a.tuning = .ok tuning

/-- Every setting is what is given or its default, and no guard changes any of them. -/
structure Sound (given : List Given) (config : Config) (tuning : Tuning) : Prop where
  effective : ∀ s : Setting, Effective given s (s.of config tuning).toNat
  check : config.check = .ok ()
  factor : max tuning.factor 1 = tuning.factor
  low : tuning.low = tuning.least
  high : tuning.high = tuning.most
  budget : (tuning.searchBudget config.topK).toNat =
    max config.topK.toNat (min (max (config.topK.toNat * tuning.factor.toNat) tuning.least.toNat)
      tuning.most.toNat)

variable {given : List Given} {config : Config} {tuning : Tuning}

theorem Effective.unique (h : (given.map Given.setting).Nodup) {s : Setting} {m n : Nat}
    (hm : Effective given s m) (hn : Effective given s n) : m = n := by
  rcases hm with ⟨g, hg, hs, hm⟩ | ⟨hother, rfl⟩ <;>
    rcases hn with ⟨g', hg', hs', hn⟩ | ⟨hother', rfl⟩
  · obtain rfl := List.inj_on_of_nodup_map h hg hg' (hs.trans hs'.symm)
    exact hm.unique hn
  · exact absurd hs (hother' g hg)
  · exact absurd hs' (hother g' hg')
  · rfl

/-- A number in range is one that the setting takes. -/
theorem Setting.exists_takes_iff {s : Setting} {text : String} :
    (∃ v, s.Takes text v) ↔ ∃ n, IsNumeral text n ∧ s.lowest ≤ n ∧ n < 2 ^ 64 := by
  constructor
  · rintro ⟨v, hv, hlow⟩
    exact ⟨v.toNat, hv, hlow, v.toNat_lt⟩
  · rintro ⟨n, hn, hlow, hfit⟩
    have hword : (UInt64.ofNat n).toNat = n := UInt64.toNat_ofNat_of_lt' hfit
    exact ⟨UInt64.ofNat n, by rwa [hword], by rwa [hword]⟩

/-! ## From arguments to settings -/

theorem config_eq_ok_iff {a : BenchmarkArguments} :
    a.config = .ok config ↔
      config = ⟨a.samples, a.dims, a.queries, a.topK, a.seed⟩ ∧ config.check = .ok () := by
  rw [BenchmarkArguments.config]
  constructor
  · cases hcheck : Config.check ⟨a.samples, a.dims, a.queries, a.topK, a.seed⟩ with
    | error e => nofun
    | ok _ =>
      rintro ⟨⟩
      exact ⟨rfl, hcheck⟩
  · rintro ⟨rfl, hcheck⟩
    rw [hcheck]
    rfl

theorem tuning_eq_ok_iff {a : BenchmarkArguments} :
    a.tuning = .ok tuning ↔
      tuning = ⟨Setting.maxConnections.value a, Setting.constructionExpansion.value a,
        Setting.factor.value a, Setting.least.value a, Setting.most.value a⟩ ∧
      tuning.least ≤ tuning.most := by
  rw [BenchmarkArguments.tuning]
  dsimp only
  split
  · rename_i hlt
    refine iff_of_false nofun ?_
    rintro ⟨rfl, hle⟩
    exact UInt64.not_lt.2 hle hlt
  · rename_i hle
    rw [Except.ok.injEq]
    constructor
    · rintro rfl
      exact ⟨rfl, UInt64.not_lt.1 hle⟩
    · rintro ⟨rfl, -⟩
      rfl

section

variable {s' : Settings BenchmarkArguments} (h : takeAll ⟨.default, []⟩ given = .ok s')
  (t : Setting)

include h

theorem effective_of_takeAll : Effective given t (t.value s'.value).toNat := by
  rcases value_of_takeAll h t with ⟨g, hg, hs, hv, -⟩ | ⟨hother, hvalue⟩
  · exact .inl ⟨g, hg, hs, hv⟩
  · exact .inr ⟨hother, by rw [hvalue, t.value_default]⟩

theorem lowest_le_of_takeAll : t.lowest ≤ (t.value s'.value).toNat := by
  rcases value_of_takeAll h t with ⟨g, -, -, -, hlow⟩ | ⟨-, hvalue⟩
  · exact hlow
  · rw [hvalue, t.value_default]
    exact t.lowest_le_default

theorem value_ne_zero_of_takeAll (ht : t ≠ .seed) : t.value s'.value ≠ 0 := by
  have hlow := lowest_le_of_takeAll h t
  have hpos : 1 ≤ t.lowest := by
    revert ht
    cases t <;> decide
  intro hzero
  rw [hzero, UInt64.toNat_zero] at hlow
  omega

end

/-! ## What is accepted -/

theorem accepts_given_iff :
    Accepts (given.flatMap Given.arguments) config tuning ↔ (∀ g ∈ given, g.Readable) ∧
      ∃ s', takeAll ⟨.default, []⟩ given = .ok s' ∧ s'.value.config = .ok config ∧
        s'.value.tuning = .ok tuning := by
  constructor
  · rintro ⟨a, hread, hconfig, htuning⟩
    obtain ⟨hreadable, s', htake, rfl⟩ := read_given_eq_ok_iff.1 hread
    exact ⟨hreadable, s', htake, hconfig, htuning⟩
  · rintro ⟨hreadable, s', htake, hconfig, htuning⟩
    exact ⟨s'.value, read_given_eq_ok_iff.2 ⟨hreadable, s', htake, rfl⟩, hconfig, htuning⟩

theorem acceptable_of_accepts (h : Accepts (given.flatMap Given.arguments) config tuning) :
    Acceptable given := by
  obtain ⟨-, s', htake, -, htuning⟩ := accepts_given_iff.1 h
  obtain ⟨hnodup, hall⟩ := exists_takeAll_iff.1 ⟨s', htake⟩
  obtain ⟨rfl, hle⟩ := tuning_eq_ok_iff.1 htuning
  refine ⟨hnodup, fun g hg => Setting.exists_takes_iff.1 (hall g hg).2, ?_⟩
  intro least most hleast hmost
  rw [hleast.unique hnodup (effective_of_takeAll htake .least),
    hmost.unique hnodup (effective_of_takeAll htake .most)]
  exact UInt64.le_iff_toNat_le.1 hle

theorem exists_accepts (h : Acceptable given) :
    ∃ config tuning, Accepts (given.flatMap Given.arguments) config tuning := by
  have htakes : ∀ g ∈ given, ∃ v, g.setting.Takes g.text v := fun g hg =>
    Setting.exists_takes_iff.2 (h.numerals g hg)
  obtain ⟨s', htake⟩ : ∃ s', takeAll ⟨.default, []⟩ given = .ok s' :=
    exists_takeAll_iff.2 ⟨h.once, fun g hg => ⟨List.not_mem_nil, htakes g hg⟩⟩
  have hconfig := config_eq_ok_iff.2 ⟨rfl, configCheck_eq_ok_iff.2
    ⟨value_ne_zero_of_takeAll htake .samples nofun, value_ne_zero_of_takeAll htake .dims nofun,
      value_ne_zero_of_takeAll htake .queries nofun, value_ne_zero_of_takeAll htake .topK nofun⟩⟩
  have htuning := tuning_eq_ok_iff.2 ⟨rfl, UInt64.le_iff_toNat_le.2
    (h.ordered _ _ (effective_of_takeAll htake .least) (effective_of_takeAll htake .most))⟩
  refine ⟨_, _, accepts_given_iff.2 ⟨?_, s', htake, hconfig, htuning⟩⟩
  intro g hg
  obtain ⟨v, hv, -⟩ := htakes g hg
  exact .inr hv.ofText_eq_plain

theorem sound_of_accepts (h : Accepts (given.flatMap Given.arguments) config tuning) :
    Sound given config tuning := by
  obtain ⟨-, s', htake, hconfig, htuning⟩ := accepts_given_iff.1 h
  obtain ⟨rfl, hcheck⟩ := config_eq_ok_iff.1 hconfig
  obtain ⟨rfl, hle⟩ := tuning_eq_ok_iff.1 htuning
  have hfactor := lowest_le_of_takeAll htake .factor
  have hleast := lowest_le_of_takeAll htake .least
  rw [UInt64.le_iff_toNat_le] at hle
  dsimp only [Setting.lowest] at hfactor hleast hle
  refine ⟨?_, hcheck, ?_, ?_, ?_, ?_⟩
  · intro s
    have heffective := effective_of_takeAll htake s
    cases s <;> exact heffective
  · rw [← UInt64.toNat_inj, toNat_max]
    exact Nat.max_eq_left hfactor
  · rw [← UInt64.toNat_inj, Tuning.toNat_low]
    exact Nat.max_eq_left hleast
  · rw [← UInt64.toNat_inj, Tuning.toNat_high]
    dsimp only
    rw [Nat.max_eq_left hleast, Nat.max_eq_left hle]
  · rw [Tuning.toNat_searchBudget, Tuning.exactBudget]
    dsimp only
    rw [Nat.max_eq_left hfactor, Nat.max_eq_left hleast, Nat.max_eq_left hle]

/-- A command with accepted settings is run, and ends with another status than 2. -/
theorem annBenchmark_code_ne_two (overflow : Overflow) (source : CandidateSource)
    {arguments : List String} (h : Accepts arguments config tuning) (w : World) :
    (runOn (annBenchmark overflow source (fun _ => none) arguments) w).1.code ≠ 2 := by
  obtain ⟨a, hread, hconfig, htuning⟩ := h
  rw [annBenchmark, hread]
  dsimp only
  rw [hconfig, htuning]
  rcases runOn_benchmark overflow source config tuning a.jsonOutput a.chartOutput w with
    (hstatus | hstatus) | ⟨hstatus, -⟩
  · rw [hstatus]
    decide
  · rw [hstatus]
    decide
  · rw [hstatus]
    decide

/-- The command accepts what is given if each setting comes once, each text is an optional plus sign
and digits for a number in range, and the bounds of the search are in order with defaults filled in.
Else it ends with status 2.  What it accepts passes its check, and the budget of a search is that of
the settings themselves. -/
theorem annBenchmark_settings (overflow : Overflow) (source : CandidateSource)
    (given : List Given) (w : World) :
    ((∃ config tuning, Accepts (given.flatMap Given.arguments) config tuning) ↔ Acceptable given) ∧
      ((runOn (annBenchmark overflow source (fun _ => none)
          (given.flatMap Given.arguments)) w).1.code = 2 ↔ ¬ Acceptable given) ∧
      ∀ config tuning, Accepts (given.flatMap Given.arguments) config tuning →
        Sound given config tuning := by
  have haccepts : (∃ config tuning, Accepts (given.flatMap Given.arguments) config tuning) ↔
      Acceptable given := ⟨fun ⟨_, _, h⟩ => acceptable_of_accepts h, exists_accepts⟩
  refine ⟨haccepts, ?_, fun _ _ => sound_of_accepts⟩
  rw [← haccepts]
  constructor
  · rintro hcode ⟨config, tuning, h⟩
    exact annBenchmark_code_ne_two overflow source h w hcode
  · intro hrefused
    rcases annBenchmark_cases overflow source (fun _ => none) (given.flatMap Given.arguments) w with
      ⟨status, after, hrun, -, hstatus⟩ | ⟨a, config, tuning, hread, hconfig, htuning, -⟩
    · obtain rfl := hstatus.resolve_right (read_given_ne_help given)
      rw [hrun]
      rfl
    · exact absurd ⟨config, tuning, a, hread, hconfig, htuning⟩ hrefused

/-- A plus sign and a zero in front, a bound below its default, the largest number, the seed zero. -/
def mixedSettings : List Given :=
  [⟨.topK, "+07", true⟩, ⟨.least, "9", false⟩, ⟨.most, "18446744073709551615", true⟩,
    ⟨.seed, "0", false⟩]

/-- These are accepted.  An upper bound on its own that is below the default lower bound is not. -/
theorem annBenchmark_settings_mixed :
    (∃ config tuning, Accepts (mixedSettings.flatMap Given.arguments) config tuning ∧
      Acceptable mixedSettings ∧ Sound mixedSettings config tuning ∧ config.topK = 7 ∧
      tuning.searchBudget config.topK = 84) ∧
      (runOn (annBenchmark .stops .exhaustive (fun _ => none) ["--ann-search-expansion-max", "63"])
        (.start (.directory []) fun _ => .zero false)).1.code = 2 := by
  have haccepts : Accepts (mixedSettings.flatMap Given.arguments)
      { Config.default with topK := 7, seed := 0 }
      { Tuning.default with least := 9, most := 18446744073709551615 } := ⟨_, rfl, rfl, rfl⟩
  have hnumeral : IsNumeral "63" 63 := ⟨['6', '3'], .inl rfl, nofun, List.all_eq_true.1 rfl, rfl⟩
  have hlow : ¬ Acceptable [⟨.most, "63", false⟩] := fun h =>
    absurd (h.ordered 64 63 (.inr ⟨by decide, rfl⟩)
      (.inl ⟨_, List.mem_singleton_self _, rfl, hnumeral⟩)) (by decide)
  obtain ⟨hacceptable, -, hsound⟩ := annBenchmark_settings .stops .exhaustive mixedSettings
    (.start (.directory []) fun _ => .zero false)
  obtain ⟨-, hcode, -⟩ := annBenchmark_settings .stops .exhaustive [⟨.most, "63", false⟩]
    (.start (.directory []) fun _ => .zero false)
  exact ⟨⟨_, _, haccepts, hacceptable.1 ⟨_, _, haccepts⟩, hsound _ _ haccepts, rfl, by decide⟩,
    hcode.2 hlow⟩

end VectorBench.CommandLine
