import VectorBench.CommandLine.Benchmark
import VectorBench.Proofs.CommandLine.Numerals

/-!
# Numbers given to a benchmark

The ten settings of the command `ann-benchmark` that are numbers, and what becomes of the texts that
are given for some of them.  A value may stand in one argument with the name of its option or in an
argument of its own.  In the second case it is read only if it does not look like an option itself,
which no numeral does.  Whatever is given, reading comes to taking one setting after the other, or
to an error that is no call for help.

    readArguments options p s (given.flatMap Given.arguments) = (s.settle p).bind (takeAll · given)
                                                                            (readArguments_given)
    (∃ s', takeAll s given = .ok s') ↔
      no setting comes twice, and each text is a numeral in its range        (exists_takeAll_iff)
-/

namespace VectorBench.CommandLine

open BenchmarkArguments

inductive Setting where
  | samples
  | dims
  | queries
  | topK
  | seed
  | maxConnections
  | constructionExpansion
  | factor
  | least
  | most
  deriving DecidableEq

namespace Setting

def name : Setting → String
  | samples => "n-samples"
  | dims => "n-dims"
  | queries => "n-queries"
  | topK => "top-k"
  | seed => "seed"
  | maxConnections => "ann-max-connections"
  | constructionExpansion => "ann-construction-expansion"
  | factor => "ann-search-expansion-factor"
  | least => "ann-search-expansion-min"
  | most => "ann-search-expansion-max"

def lowest : Setting → Nat
  | seed => 0
  | _ => 1

def of (config : Config) (tuning : Tuning) : Setting → UInt64
  | samples => config.samples
  | dims => config.dims
  | queries => config.queries
  | topK => config.topK
  | seed => config.seed
  | maxConnections => tuning.maxConnections
  | constructionExpansion => tuning.constructionExpansion
  | factor => tuning.factor
  | least => tuning.least
  | most => tuning.most

/-- The value of a setting by the arguments, defaults filled in. -/
def value (a : BenchmarkArguments) : Setting → UInt64
  | samples => a.samples
  | dims => a.dims
  | queries => a.queries
  | topK => a.topK
  | seed => a.seed
  | maxConnections => a.maxConnections.getD Tuning.default.maxConnections
  | constructionExpansion => a.constructionExpansion.getD Tuning.default.constructionExpansion
  | factor => a.factor.getD Tuning.default.factor
  | least => a.least.getD Tuning.default.least
  | most => a.most.getD Tuning.default.most

def put (v : UInt64) (a : BenchmarkArguments) : Setting → BenchmarkArguments
  | samples => { a with samples := v }
  | dims => { a with dims := v }
  | queries => { a with queries := v }
  | topK => { a with topK := v }
  | seed => { a with seed := v }
  | maxConnections => { a with maxConnections := some v }
  | constructionExpansion => { a with constructionExpansion := some v }
  | factor => { a with factor := some v }
  | least => { a with least := some v }
  | most => { a with most := some v }

def option (s : Setting) : CommandOption BenchmarkArguments :=
  (options.find? fun option => option.name == s.name).getD seedOption

theorem name_inj {s t : Setting} : s.name = t.name ↔ s = t := by
  cases s <;> cases t <;> decide

theorem value_put (s t : Setting) (v : UInt64) (a : BenchmarkArguments) :
    t.value (s.put v a) = if t = s then v else t.value a := by
  cases s <;> cases t <;> rfl

theorem value_default (s : Setting) : s.value .default = s.of .default .default := by
  cases s <;> rfl

theorem lowest_le_default (s : Setting) : s.lowest ≤ (s.of .default .default).toNat := by
  cases s <;> decide

theorem find?_option (s : Setting) :
    (options.find? fun option => option.name == s.name) = some s.option := by
  cases s <;> rfl

theorem option_name (s : Setting) : s.option.name = s.name := by
  cases s <;> rfl

theorem option_repeatable (s : Setting) : s.option.repeatable = false := by
  cases s <;> rfl

end Setting

/-! ## Setting one of them -/

variable {text : String} {a after : BenchmarkArguments}

theorem readPositive_eq_ok_iff {v : UInt64} :
    readPositive text = .ok v ↔ IsNumeral text v.toNat ∧ 1 ≤ v.toNat := by
  have hpos : ∀ w : UInt64, w = 0 ↔ ¬ 1 ≤ w.toNat := by
    intro w
    rw [← UInt64.toNat_inj, UInt64.toNat_zero]
    omega
  rw [readPositive, ← readWhole_eq_ok_iff]
  cases readWhole text with
  | error fault => exact iff_of_false nofun fun ⟨h, _⟩ => nomatch h
  | ok w =>
    dsimp only
    rw [Except.ok.injEq]
    split
    · rename_i hzero
      refine iff_of_false nofun ?_
      rintro ⟨rfl, hv⟩
      exact (hpos w).1 hzero hv
    · rename_i hnonzero
      rw [Except.ok.injEq, iff_self_and]
      rintro rfl
      exact not_not.1 fun h => hnonzero ((hpos w).2 h)

theorem positiveOption_set_eq_ok_iff {name environmentName : String}
    {set : UInt64 → BenchmarkArguments → BenchmarkArguments} :
    (positiveOption name environmentName set).set text a = .ok after ↔
      ∃ v : UInt64, (IsNumeral text v.toNat ∧ 1 ≤ v.toNat) ∧ set v a = after := by
  simp only [← readPositive_eq_ok_iff, positiveOption]
  cases readPositive text with
  | error reason => exact iff_of_false nofun fun ⟨_, h, _⟩ => nomatch h
  | ok v => simp

theorem seedOption_set_eq_ok_iff : seedOption.set text a = .ok after ↔
    ∃ v : UInt64, (IsNumeral text v.toNat ∧ 0 ≤ v.toNat) ∧ { a with seed := v } = after := by
  simp only [← readWhole_eq_ok_iff, seedOption, Nat.zero_le, and_true]
  cases readWhole text with
  | error fault => exact iff_of_false nofun fun ⟨_, h, _⟩ => nomatch h
  | ok v => simp

namespace Setting

/-- A text by which a setting gets a value. -/
def Takes (s : Setting) (text : String) (v : UInt64) : Prop :=
  IsNumeral text v.toNat ∧ s.lowest ≤ v.toNat

theorem Takes.unique {s : Setting} {v w : UInt64} (hv : s.Takes text v) (hw : s.Takes text w) :
    v = w := UInt64.toNat_inj.1 (hv.1.unique hw.1)

theorem option_set_eq_ok_iff (s : Setting) :
    s.option.set text a = .ok after ↔ ∃ v, s.Takes text v ∧ s.put v a = after := by
  cases s with
  | seed => exact seedOption_set_eq_ok_iff
  | _ => exact positiveOption_set_eq_ok_iff

/-- A setting may be set once, to a number that is in its range. -/
theorem apply_option_eq_ok_iff (s : Setting) {settings settings' : Settings BenchmarkArguments} :
    settings.apply s.option text = .ok settings' ↔ s.name ∉ settings.given ∧
      ∃ v, s.Takes text v ∧ settings' = ⟨s.put v settings.value, s.name :: settings.given⟩ := by
  rw [Settings.apply, s.option_name, s.option_repeatable, Bool.not_false, Bool.and_true]
  split
  · rename_i hmem
    exact iff_of_false nofun fun ⟨hnew, _⟩ => hnew (List.contains_iff_mem.1 hmem)
  · rename_i hnew
    rw [List.contains_iff_mem] at hnew
    cases hset : s.option.set text settings.value with
    | error refusal =>
      refine iff_of_false (by cases refusal <;> nofun) ?_
      rintro ⟨-, v, hv, -⟩
      have hdone : s.option.set text settings.value = .ok (s.put v settings.value) :=
        s.option_set_eq_ok_iff.2 ⟨v, hv, rfl⟩
      rw [hset] at hdone
      cases hdone
    | ok changed =>
      obtain ⟨v, hv, rfl⟩ := s.option_set_eq_ok_iff.1 hset
      constructor
      · rintro ⟨⟩
        exact ⟨hnew, v, hv, rfl⟩
      · rintro ⟨-, w, hw, rfl⟩
        rw [hv.unique hw]

end Setting

/-! ## Arguments -/

/-- A setting and the text given for it, in one argument with its name or in one of its own. -/
structure Given where
  setting : Setting
  text : String
  joined : Bool

namespace Given

/-- The arguments by which it is given. -/
def arguments (g : Given) : List String :=
  if g.joined then ["--" ++ g.setting.name ++ "=" ++ g.text] else ["--" ++ g.setting.name, g.text]

def Readable (g : Given) : Prop := g.joined = true ∨ Argument.ofText g.text = .plain

end Given

theorem Setting.ofText_name (s : Setting) :
    Argument.ofText ("--" ++ s.name) = .long s.name none := by
  cases s <;> rfl

theorem Setting.ofText_joined (s : Setting) (text : String) :
    Argument.ofText ("--" ++ s.name ++ "=" ++ text) = .long s.name (some text) := by
  have hname : ∀ c ∈ s.name.toList, (c != '=') = true :=
    List.all_eq_true.1 (by cases s <;> rfl)
  have htext : ("--" ++ s.name ++ "=" ++ text).toList =
      '-' :: '-' :: (s.name.toList ++ '=' :: text.toList) := by
    simp
  have htake : (s.name.toList ++ '=' :: text.toList).takeWhile (· != '=') = s.name.toList := by
    rw [List.takeWhile_append_of_pos hname]
    simp
  have hdrop : (s.name.toList ++ '=' :: text.toList).dropWhile (· != '=') = '=' :: text.toList := by
    rw [List.dropWhile_append_of_pos hname]
    simp
  unfold Argument.ofText
  split
  · rename_i hdivider
    rw [htext] at hdivider
    simp at hdivider
  · rename_i rest _ hlong
    rw [htext] at hlong
    obtain rfl := List.tail_eq_of_cons_eq (List.tail_eq_of_cons_eq hlong)
    rw [htake, hdrop]
    simp
  · rename_i hletter hshort
    rw [htext] at hshort
    exact (hletter (List.head_eq_of_cons_eq (List.tail_eq_of_cons_eq hshort)).symm).elim
  · rename_i hlong _
    exact (hlong _ htext).elim

/-- A numeral does not look like an option. -/
theorem IsNumeral.ofText_eq_plain {text : String} {n : Nat} (h : IsNumeral text n) :
    Argument.ofText text = .plain := by
  obtain ⟨digits, htext, hne, hdigits, -⟩ := h
  have hdash : text.toList.head? ≠ some '-' := by
    rcases htext with htext | htext <;> rw [htext]
    · exact fun hhead => absurd (hdigits '-' (List.mem_of_head? hhead)) (by decide)
    · exact nofun
  unfold Argument.ofText
  split
  · rename_i htext'
    exact absurd (congrArg List.head? htext') hdash
  · rename_i htext'
    exact absurd (congrArg List.head? htext') hdash
  · rename_i htext'
    exact absurd (congrArg List.head? htext') hdash
  · rfl

/-! ## Reading them -/

section

variable {σ : Type}

theorem apply_ne_help {s : Settings σ} {option : CommandOption σ} {text : String} :
    s.apply option text ≠ .error .help := by
  rw [Settings.apply]
  split
  · nofun
  · split <;> nofun

theorem settle_ne_help {s : Settings σ} {p : Option (Pending σ)} : s.settle p ≠ .error .help := by
  match p with
  | none => nofun
  | some ⟨_, none⟩ => nofun
  | some ⟨_, some _⟩ => exact apply_ne_help

/-- With no variable set, nothing is added to the arguments. -/
theorem readVariables_none (options : List (CommandOption σ)) (s : Settings σ) :
    readVariables (fun _ => none) options s = .ok s := by
  induction options with
  | nil => rfl
  | cons option rest ih =>
    have hunset : (option.environmentName?.bind fun _ => (none : Option String)) = none := by
      cases option.environmentName? <;> rfl
    rw [readVariables, ih, hunset]
    exact ite_self _

end

/-- No settings come of it, for another reason than a call for help. -/
def Refused (r : Except ArgumentError (Settings BenchmarkArguments)) : Prop :=
  ∃ e, r = .error e ∧ e ≠ .help

theorem Refused.bind {r : Except ArgumentError (Settings BenchmarkArguments)}
    {f : Settings BenchmarkArguments → Except ArgumentError (Settings BenchmarkArguments)}
    (hr : r ≠ .error .help) (hf : ∀ s, Refused (f s)) : Refused (r.bind f) := by
  cases r with
  | error e => exact ⟨e, rfl, fun he => hr (congrArg _ he)⟩
  | ok s => exact hf s

section

variable (p : Option (Pending BenchmarkArguments)) (s : Settings BenchmarkArguments)
  (setting : Setting) (rest : List String)

theorem readArguments_joined (text : String) :
    readArguments options p s (("--" ++ setting.name ++ "=" ++ text) :: rest) =
      (s.settle p).bind fun s => (s.apply setting.option text).bind fun s =>
        readArguments options none s rest := by
  rw [readArguments.eq_def]
  dsimp only
  rw [setting.ofText_joined]
  dsimp only
  rw [setting.find?_option]
  cases s.settle p with
  | error e => rfl
  | ok s =>
    dsimp only [Except.bind]
    cases s.apply setting.option text with
    | error e => rfl
    | ok s => rfl

theorem readArguments_name :
    readArguments options p s (("--" ++ setting.name) :: rest) =
      (s.settle p).bind fun s => readArguments options (some ⟨setting.option, none⟩) s rest := by
  rw [readArguments.eq_def]
  dsimp only
  rw [setting.ofText_name]
  dsimp only
  rw [setting.find?_option]
  cases s.settle p with
  | error e => rfl
  | ok s => rfl

end

theorem readArguments_plain {text : String} (h : Argument.ofText text = .plain)
    (option : CommandOption BenchmarkArguments) (s : Settings BenchmarkArguments)
    (rest : List String) :
    readArguments options (some ⟨option, none⟩) s (text :: rest) =
      readArguments options (some ⟨option, some text⟩) s rest := by
  rw [readArguments.eq_def]
  dsimp only
  rw [h]

/-- A text that looks like an option is no value for the option in front of it. -/
theorem readArguments_not_plain {text : String} (h : Argument.ofText text ≠ .plain)
    (option : CommandOption BenchmarkArguments) (s : Settings BenchmarkArguments)
    (rest : List String) :
    Refused (readArguments options (some ⟨option, none⟩) s (text :: rest)) := by
  rw [readArguments.eq_def]
  dsimp only
  cases hkind : Argument.ofText text with
  | plain => exact absurd hkind h
  | divider =>
    cases rest with
    | nil => exact ⟨_, rfl, nofun⟩
    | cons next rest => exact ⟨_, rfl, nofun⟩
  | long name value? =>
    dsimp only [Settings.settle]
    split
    · split
      · split <;> exact ⟨_, rfl, nofun⟩
      · exact ⟨_, rfl, nofun⟩
    · exact ⟨_, rfl, nofun⟩
  | short letter =>
    dsimp only [Settings.settle]
    split <;> exact ⟨_, rfl, nofun⟩

/-- The settings after all that is given. -/
def takeAll (s : Settings BenchmarkArguments) (given : List Given) :
    Except ArgumentError (Settings BenchmarkArguments) :=
  given.foldlM (fun s g => s.apply g.setting.option g.text) s

theorem takeAll_cons (s : Settings BenchmarkArguments) (g : Given) (rest : List Given) :
    takeAll s (g :: rest) = (s.apply g.setting.option g.text).bind (takeAll · rest) := rfl

theorem takeAll_ne_help (s : Settings BenchmarkArguments) (given : List Given) :
    takeAll s given ≠ .error .help := by
  induction given generalizing s with
  | nil => nofun
  | cons g rest ih =>
    rw [takeAll_cons]
    cases happly : s.apply g.setting.option g.text with
    | error e => exact fun he => apply_ne_help (happly.trans he)
    | ok s => exact ih s

/-- Texts that can be values are taken one after the other. -/
theorem readArguments_given {given : List Given} (h : ∀ g ∈ given, g.Readable)
    (p : Option (Pending BenchmarkArguments)) (s : Settings BenchmarkArguments) :
    readArguments options p s (given.flatMap Given.arguments) =
      (s.settle p).bind (takeAll · given) := by
  -- a value in an argument of its own is pending until the next name comes, so `p` varies
  induction given generalizing p s with
  | nil =>
    rw [List.flatMap_nil, readArguments]
    cases s.settle p <;> rfl
  | cons g rest ih =>
    obtain ⟨hg, hrest⟩ := List.forall_mem_cons.1 h
    simp only [takeAll_cons]
    rw [List.flatMap_cons, Given.arguments]
    split
    · rw [List.cons_append, List.nil_append, readArguments_joined]
      simp only [ih hrest]
      rfl
    · rename_i hjoined
      have hplain := hg.resolve_left hjoined
      rw [List.cons_append, List.cons_append, List.nil_append, readArguments_name]
      simp only [readArguments_plain hplain, ih hrest]
      rfl

theorem refused_of_not_readable {given : List Given} (h : ¬ ∀ g ∈ given, g.Readable)
    (p : Option (Pending BenchmarkArguments)) (s : Settings BenchmarkArguments) :
    Refused (readArguments options p s (given.flatMap Given.arguments)) := by
  induction given generalizing p s with
  | nil => exact absurd (List.forall_mem_nil _) h
  | cons g rest ih =>
    have hlater : g.Readable → ¬ ∀ g ∈ rest, g.Readable := fun hg hrest =>
      h (List.forall_mem_cons.2 ⟨hg, hrest⟩)
    rw [List.flatMap_cons, Given.arguments]
    split
    · rename_i hjoined
      rw [List.cons_append, List.nil_append, readArguments_joined]
      exact .bind settle_ne_help fun s => .bind apply_ne_help fun s =>
        ih (hlater (.inl hjoined)) none s
    · rw [List.cons_append, List.cons_append, List.nil_append, readArguments_name]
      refine .bind settle_ne_help fun s => ?_
      by_cases hplain : Argument.ofText g.text = .plain
      · rw [readArguments_plain hplain]
        exact ih (hlater (.inr hplain)) _ s
      · exact readArguments_not_plain hplain _ s _

/-! ## What comes of it -/

/-- All is taken when no setting comes twice and each text is a numeral in its range. -/
theorem exists_takeAll_iff {given : List Given} {s : Settings BenchmarkArguments} :
    (∃ s', takeAll s given = .ok s') ↔ (given.map Given.setting).Nodup ∧
      ∀ g ∈ given, g.setting.name ∉ s.given ∧ ∃ v, g.setting.Takes g.text v := by
  -- the names that may not come again are those in `s.given`, which grows with each setting
  induction given generalizing s with
  | nil => exact iff_of_true ⟨s, rfl⟩ ⟨List.nodup_nil, List.forall_mem_nil _⟩
  | cons g rest ih =>
    rw [takeAll_cons, List.map_cons, List.nodup_cons, List.forall_mem_cons]
    cases happly : s.apply g.setting.option g.text with
    | error e =>
      refine iff_of_false nofun ?_
      rintro ⟨-, ⟨hnew, v, hv⟩, -⟩
      have hdone : s.apply g.setting.option g.text = .ok _ :=
        g.setting.apply_option_eq_ok_iff.2 ⟨hnew, v, hv, rfl⟩
      rw [happly] at hdone
      cases hdone
    | ok s₁ =>
      obtain ⟨hnew, v, hv, rfl⟩ := g.setting.apply_option_eq_ok_iff.1 happly
      have hapart : ∀ g' : Given, g'.setting.name ∉ g.setting.name :: s.given ↔
          g'.setting ≠ g.setting ∧ g'.setting.name ∉ s.given := by
        intro g'
        rw [List.mem_cons, not_or, Setting.name_inj]
      have hmem : g.setting ∉ rest.map Given.setting ↔ ∀ g' ∈ rest, g'.setting ≠ g.setting := by
        rw [List.mem_map, not_exists]
        exact forall_congr' fun _ => not_and
      dsimp only [Except.bind]
      rw [ih, hmem]
      simp only [hapart, and_assoc, forall_and]
      constructor
      · rintro ⟨hnodup, hother, hfree, hnumbers⟩
        exact ⟨hother, hnodup, hnew, ⟨v, hv⟩, hfree, hnumbers⟩
      · rintro ⟨hother, hnodup, -, -, hfree, hnumbers⟩
        exact ⟨hnodup, hother, hfree, hnumbers⟩

/-- What a setting is after all is taken: the number that is given for it, or what it was. -/
theorem value_of_takeAll {given : List Given} {s s' : Settings BenchmarkArguments}
    (h : takeAll s given = .ok s') (t : Setting) :
    (∃ g ∈ given, g.setting = t ∧ t.Takes g.text (t.value s'.value)) ∨
      (∀ g ∈ given, g.setting ≠ t) ∧ t.value s'.value = t.value s.value := by
  induction given generalizing s with
  | nil =>
    cases h
    exact .inr ⟨List.forall_mem_nil _, rfl⟩
  | cons g rest ih =>
    rw [takeAll_cons] at h
    cases happly : s.apply g.setting.option g.text with
    | error e =>
      rw [happly] at h
      cases h
    | ok s₁ =>
      rw [happly] at h
      obtain ⟨-, v, hv, rfl⟩ := g.setting.apply_option_eq_ok_iff.1 happly
      rcases ih h with ⟨g', hmem, hg'⟩ | ⟨hother, hvalue⟩
      · exact .inl ⟨g', List.mem_cons_of_mem _ hmem, hg'⟩
      · rw [Setting.value_put] at hvalue
        split at hvalue
        · rename_i ht
          refine .inl ⟨g, List.mem_cons_self, ht.symm, ?_⟩
          rw [hvalue, ht]
          exact hv
        · rename_i ht
          exact .inr ⟨List.forall_mem_cons.2 ⟨Ne.symm ht, hother⟩, hvalue⟩

theorem read_of_readable {given : List Given} (h : ∀ g ∈ given, g.Readable) :
    BenchmarkArguments.read (fun _ => none) (given.flatMap Given.arguments) =
      (takeAll ⟨.default, []⟩ given).map Settings.value := by
  rw [BenchmarkArguments.read, readSettings, readArguments_given h]
  dsimp only [Settings.settle, Except.bind]
  cases takeAll ⟨.default, []⟩ given with
  | error e => rfl
  | ok s =>
    dsimp only
    rw [readVariables_none]
    rfl

theorem read_of_not_readable {given : List Given} (h : ¬ ∀ g ∈ given, g.Readable) :
    ∃ e, BenchmarkArguments.read (fun _ => none) (given.flatMap Given.arguments) = .error e ∧
      e ≠ .help := by
  obtain ⟨e, he, hother⟩ := refused_of_not_readable h none ⟨.default, []⟩
  refine ⟨e, ?_, hother⟩
  rw [BenchmarkArguments.read, readSettings, he]

theorem read_given_eq_ok_iff {given : List Given} :
    BenchmarkArguments.read (fun _ => none) (given.flatMap Given.arguments) = .ok a ↔
      (∀ g ∈ given, g.Readable) ∧ ∃ s, takeAll ⟨.default, []⟩ given = .ok s ∧ s.value = a := by
  by_cases hreadable : ∀ g ∈ given, g.Readable
  · rw [read_of_readable hreadable]
    cases takeAll ⟨.default, []⟩ given with
    | error e => exact iff_of_false nofun fun ⟨_, _, h, _⟩ => nomatch h
    | ok s => simpa [Except.map] using fun _ => hreadable
  · obtain ⟨e, he, -⟩ := read_of_not_readable hreadable
    rw [he]
    exact iff_of_false nofun fun h => hreadable h.1

theorem read_given_ne_help (given : List Given) :
    BenchmarkArguments.read (fun _ => none) (given.flatMap Given.arguments) ≠ .error .help := by
  by_cases hreadable : ∀ g ∈ given, g.Readable
  · rw [read_of_readable hreadable]
    cases htake : takeAll ⟨.default, []⟩ given with
    | error e =>
      rintro ⟨⟩
      exact takeAll_ne_help _ _ htake
    | ok s => nofun
  · obtain ⟨e, he, hother⟩ := read_of_not_readable hreadable
    rw [he]
    exact fun hhelp => hother (Except.error.inj hhelp)

end VectorBench.CommandLine
