import VectorBench.Proofs.Json.Denotation
import VectorBench.Proofs.Json.Raw
import VectorBench.Proofs.Record.Describes

/-!
# What any document says of records

A value gives a record when it has the parts of it, each of them as an object that names its fields
or as an array of their values; the measurements are an object in any case.  A document whose names
denote texts and whose parts are objects gives just the record that it describes.

    HasObjects v → (GivesRecord True config metrics v.raw ↔ Describes ReadAs v config metrics)
                                                                               (givesRecord_raw_iff)
-/

namespace VectorBench

open Json (Value RawValue Member NumberLiteral only)

/-! ## Parts of documents -/

/-- The natural number `x`, without sign, fraction and exponent. -/
def GivesNatural (x : UInt64) (v : RawValue) : Prop :=
  ∃ n, v = .number n ∧ n.natural? = some x.toNat

/-- A number that is read as `x`. -/
def GivesSeconds (x : Binary64) (v : RawValue) : Prop := ∃ n, v = .number n ∧ n.ReadAs x

def GivesConfig (lists : Prop) (c : Config) (v : RawValue) : Prop :=
  v.Gives lists [("n_samples", GivesNatural c.samples), ("n_dims", GivesNatural c.dims),
    ("n_queries", GivesNatural c.queries), ("top_k", GivesNatural c.topK),
    ("seed", GivesNatural c.seed)]

def GivesMeasurement (lists : Prop) (m : Measurement) (v : RawValue) : Prop :=
  v.Gives lists [("build_sec", GivesSeconds m.buildSeconds),
    ("search_sec", GivesSeconds m.searchSeconds)]

/-- An object gives measurements under the names of their engines. -/
def GivesMetrics (lists : Prop) (metrics : List Measurement) (v : RawValue) : Prop :=
  ∃ inside members, v = .object inside members ∧
    List.Forall₂ (fun m x => m.name? = some x.engine ∧ GivesMeasurement lists x m.value)
      members metrics

def GivesRecord (lists : Prop) (config : Config) (metrics : List Measurement) (v : RawValue) : Prop :=
  v.Gives lists [("config", GivesConfig lists config), ("metrics", GivesMetrics lists metrics)]

/-! ## Documents whose names denote texts -/

namespace Json

theorem exists_member_of_only {members : List (Member Value)} {name : String} {w : Value}
    (h : only members name = some w) : ∃ m ∈ members, m.name.text = name ∧ m.value = w := by
  unfold only at h
  split at h
  · rename_i m hm
    cases h
    have hmem : m ∈ members.filter (·.name.text == name) := hm ▸ List.mem_singleton_self m
    obtain ⟨hin, hname⟩ := List.mem_filter.1 hmem
    exact ⟨m, hin, eq_of_beq hname, rfl⟩
  · cases h

theorem gives_raw_iff {lists : Prop} {v : Value} {fields : List (String × (RawValue → Prop))}
    (hv : v.IsObject) :
    v.raw.Gives lists fields ↔
      ∀ field ∈ fields, ∃ w, only v.members field.1 = some w ∧ field.2 w.raw := by
  cases v with
  | object inside members =>
    have hnames : ∀ m ∈ rawMembers members, m.name? ≠ none := by
      rw [rawMembers_eq_map, List.forall_mem_map]
      intro m _
      rw [m.raw_name?]
      exact Option.some_ne_none _
    have honly : ∀ field : String × (RawValue → Prop),
        (∃ w, RawValue.only (rawMembers members) field.1 = some w ∧ field.2 w) ↔
          ∃ w, only members field.1 = some w ∧ field.2 w.raw := by
      intro field
      rw [only_raw]
      constructor
      · rintro ⟨w, hw, hfield⟩
        obtain ⟨u, hu, rfl⟩ := Option.map_eq_some_iff.1 hw
        exact ⟨u, hu, hfield⟩
      · rintro ⟨w, hw, hfield⟩
        exact ⟨w.raw, Option.map_eq_some_iff.2 ⟨w, hw, rfl⟩, hfield⟩
    constructor
    · rintro ⟨-, hfields⟩ field hfield
      exact (honly field).1 (hfields field hfield)
    · exact fun h => .named hnames fun field hfield => (honly field).2 (h field hfield)
  | _ => exact absurd hv id

theorem raw_eq_number_iff {v : Value} {n : NumberLiteral} :
    v.raw = .number n ↔ v = .number n := by
  cases v <;> simp [Value.raw]

end Json

theorem givesNatural_raw_iff {v : Value} {name : String} {x : UInt64} :
    (∃ w, only v.members name = some w ∧ GivesNatural x w.raw) ↔ NaturalMember v name x := by
  simp only [GivesNatural, Json.raw_eq_number_iff]
  constructor
  · rintro ⟨w, hw, n, rfl, hn⟩
    exact ⟨n, hw, hn⟩
  · rintro ⟨n, hw, hn⟩
    exact ⟨_, hw, n, rfl, hn⟩

theorem givesSeconds_raw_iff {v : Value} {name : String} {x : Binary64} :
    (∃ w, only v.members name = some w ∧ GivesSeconds x w.raw) ↔
      SecondsMember NumberLiteral.ReadAs v name x := by
  simp only [GivesSeconds, Json.raw_eq_number_iff]
  constructor
  · rintro ⟨w, hw, n, rfl, hn⟩
    exact ⟨n, hw, hn⟩
  · rintro ⟨n, hw, hn⟩
    exact ⟨_, hw, n, rfl, hn⟩

variable {lists : Prop} {v : Value}

theorem givesConfig_raw_iff {c : Config} (hv : v.IsObject) :
    GivesConfig lists c v.raw ↔ DescribesConfig v c := by
  rw [GivesConfig, Json.gives_raw_iff hv]
  simp only [List.forall_mem_cons, givesNatural_raw_iff]
  constructor
  · rintro ⟨h1, h2, h3, h4, h5, -⟩
    exact ⟨h1, h2, h3, h4, h5⟩
  · rintro ⟨h1, h2, h3, h4, h5⟩
    exact ⟨h1, h2, h3, h4, h5, List.forall_mem_nil _⟩

theorem givesMetrics_raw_iff {metrics : List Measurement} (hv : v.IsObject)
    (hentries : ∀ entry ∈ v.members, entry.value.IsObject) :
    GivesMetrics lists metrics v.raw ↔
      List.Forall₂ (DescribesMeasurement NumberLiteral.ReadAs) v.members metrics := by
  have hmember : ∀ (m : Member Value) (x : Measurement), m.value.IsObject →
      (m.raw.name? = some x.engine ∧ GivesMeasurement lists x m.raw.value ↔
        DescribesMeasurement NumberLiteral.ReadAs m x) := by
    intro m x hm
    rw [m.raw_name?, GivesMeasurement, Member.raw, Json.gives_raw_iff hm]
    simp only [List.forall_mem_cons, givesSeconds_raw_iff]
    constructor
    · rintro ⟨hname, hbuild, hsearch, -⟩
      exact ⟨(Option.some.inj hname).symm, hbuild, hsearch⟩
    · rintro ⟨hname, hbuild, hsearch⟩
      exact ⟨hname ▸ rfl, hbuild, hsearch, List.forall_mem_nil _⟩
  cases v with
  | object inside members =>
    have hall : List.Forall₂ (fun m x => m.name? = some x.engine ∧ GivesMeasurement lists x m.value)
        (Json.rawMembers members) metrics ↔
        List.Forall₂ (DescribesMeasurement NumberLiteral.ReadAs) members metrics := by
      rw [Json.rawMembers_eq_map, List.forall₂_map_left_iff]
      constructor
      · intro h
        exact ((List.forall₂_and_left _ _).2 ⟨hentries, h⟩).imp fun m x hm =>
          (hmember m x hm.1).1 hm.2
      · intro h
        exact ((List.forall₂_and_left _ _).2 ⟨hentries, h⟩).imp fun m x hm =>
          (hmember m x hm.1).2 hm.2
    refine Iff.trans ?_ hall
    constructor
    · rintro ⟨_, _, heq, h⟩
      cases heq
      exact h
    · exact fun h => ⟨_, _, rfl, h⟩
  | _ => exact absurd hv id

/-- A document whose names denote texts and whose parts are objects gives the record that it
describes. -/
theorem givesRecord_raw_iff {config : Config} {metrics : List Measurement} (hv : HasObjects v) :
    GivesRecord lists config metrics v.raw ↔ Describes NumberLiteral.ReadAs v config metrics := by
  have hconfig : (∃ w, only v.members "config" = some w ∧ GivesConfig lists config w.raw) ↔
      ∃ w, only v.members "config" = some w ∧ DescribesConfig w config := by
    refine exists_congr fun w => and_congr_right fun hw => ?_
    obtain ⟨m, hm, hname, rfl⟩ := Json.exists_member_of_only hw
    exact givesConfig_raw_iff (hv.config m hm hname)
  have hmetrics : (∃ w, only v.members "metrics" = some w ∧ GivesMetrics lists metrics w.raw) ↔
      ∃ w, only v.members "metrics" = some w ∧
        List.Forall₂ (DescribesMeasurement NumberLiteral.ReadAs) w.members metrics := by
    refine exists_congr fun w => and_congr_right fun hw => ?_
    obtain ⟨m, hm, hname, rfl⟩ := Json.exists_member_of_only hw
    obtain ⟨hobject, hentries⟩ := hv.metrics m hm hname
    exact givesMetrics_raw_iff hobject hentries
  rw [GivesRecord, Json.gives_raw_iff hv.top]
  simp only [List.forall_mem_cons, hconfig, hmetrics]
  constructor
  · rintro ⟨hc, hm, -⟩
    exact ⟨hc, hm⟩
  · rintro ⟨hc, hm⟩
    exact ⟨hc, hm, List.forall_mem_nil _⟩

end VectorBench
