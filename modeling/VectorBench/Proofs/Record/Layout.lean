import VectorBench.Proofs.Json.Layout
import VectorBench.Proofs.Record.Describes
import VectorBench.Record.Text

/-!
# Documents of records

The document of a record with given spellings of its durations, in the layout of printed records.
It describes the record, whatever the spellings are, and it has the printed text when they are the
printed ones.

    Describes readAs (recordDocument config entries).value config metrics  (recordDocument_describes)
    (recordDocument r.config entries).text = r.encode.toList                  (recordDocument_text)
-/

namespace VectorBench

open Json (Value Member NumberLiteral Document prettyObject layoutMembers SameText only)

/-- An engine and the spelling of what it took. -/
structure Entry where
  engine : String
  build : NumberLiteral
  search : NumberLiteral

def Entry.value (e : Entry) : Value :=
  prettyObject 2 [("build_sec", .number e.build), ("search_sec", .number e.search)]

def Config.value (c : Config) : Value :=
  prettyObject 1 [("n_samples", .number (.ofNatural c.samples.toNat)),
    ("n_dims", .number (.ofNatural c.dims.toNat)),
    ("n_queries", .number (.ofNatural c.queries.toNat)),
    ("top_k", .number (.ofNatural c.topK.toNat)), ("seed", .number (.ofNatural c.seed.toNat))]

def recordDocument (config : Config) (entries : List Entry) : Document where
  before := []
  value := prettyObject 0 [("config", config.value),
    ("metrics", prettyObject 1 (entries.map fun e => (e.engine, e.value)))]
  after := [.lineFeed]

/-! ## What it describes -/

theorem recordDocument_hasObjects (config : Config) (entries : List Entry) :
    HasObjects (recordDocument config entries).value := by
  have hmembers : ∀ m ∈ (recordDocument config entries).value.members,
      m.name.text = "config" ∧ m.value = config.value ∨
        m.name.text = "metrics" ∧
          m.value = prettyObject 1 (entries.map fun e => (e.engine, e.value)) := by
    intro m hm
    simp only [recordDocument, prettyObject, layoutMembers, Value.members, List.mem_cons,
      List.not_mem_nil, or_false] at hm
    rcases hm with rfl | rfl
    · exact Or.inl ⟨rfl, rfl⟩
    · exact Or.inr ⟨rfl, rfl⟩
  refine ⟨trivial, fun m hm hname => ?_, fun m hm hname => ?_⟩
  · rcases hmembers m hm with ⟨-, h⟩ | ⟨h, -⟩
    · rw [h]
      trivial
    · rw [h] at hname
      exact absurd hname (by decide)
  · rcases hmembers m hm with ⟨h, -⟩ | ⟨-, h⟩
    · rw [h] at hname
      exact absurd hname (by decide)
    · rw [h]
      refine ⟨trivial, fun entry hentry => ?_⟩
      have hpair := List.mem_map_of_mem (f := fun m : Member Value => (m.name.text, m.value)) hentry
      change _ ∈ (layoutMembers 1 _).map _ at hpair
      rw [Json.layoutMembers_map] at hpair
      obtain ⟨e, -, he⟩ := List.mem_map.1 hpair
      have hvalue : e.value = entry.value := (Prod.ext_iff.1 he).2
      rw [← hvalue]
      trivial

theorem config_describes (c : Config) : DescribesConfig c.value c where
  samples := ⟨_, rfl, Json.ofNatural_natural? _⟩
  dims := ⟨_, rfl, Json.ofNatural_natural? _⟩
  queries := ⟨_, rfl, Json.ofNatural_natural? _⟩
  topK := ⟨_, rfl, Json.ofNatural_natural? _⟩
  seed := ⟨_, rfl, Json.ofNatural_natural? _⟩

/-- The spellings of an entry are read as the durations of a measurement. -/
structure Entry.Spells (readAs : NumberLiteral → Binary64 → Prop) (e : Entry) (m : Measurement) :
    Prop where
  engine : m.engine = e.engine
  build : readAs e.build m.buildSeconds
  search : readAs e.search m.searchSeconds

variable {readAs : NumberLiteral → Binary64 → Prop}

/-- A member matters by its name and value only. -/
theorem describesMetrics_iff {entries : List Entry} {metrics : List Measurement} :
    List.Forall₂ (DescribesMeasurement readAs)
        (layoutMembers 1 (entries.map fun e => (e.engine, e.value))) metrics ↔
      List.Forall₂ (Entry.Spells readAs) entries metrics := by
  have hpairs : List.Forall₂ (DescribesMeasurement readAs)
        (layoutMembers 1 (entries.map fun e => (e.engine, e.value))) metrics ↔
      List.Forall₂ (fun (p : String × Value) (x : Measurement) =>
          x.engine = p.1 ∧ SecondsMember readAs p.2 "build_sec" x.buildSeconds ∧
            SecondsMember readAs p.2 "search_sec" x.searchSeconds)
        (entries.map fun e => (e.engine, e.value)) metrics := by
    conv_rhs => rw [← Json.layoutMembers_map 1 (entries.map fun e => (e.engine, e.value))]
    rw [List.forall₂_map_left_iff]
    constructor
    · exact fun h => h.imp fun m x hm => ⟨hm.engine, hm.build, hm.search⟩
    · exact fun h => h.imp fun m x hm => ⟨hm.1, hm.2.1, hm.2.2⟩
  rw [hpairs, List.forall₂_map_left_iff]
  constructor
  · refine fun h => h.imp fun e x he => ?_
    obtain ⟨hengine, ⟨build, hbuild, hreadBuild⟩, ⟨search, hsearch, hreadSearch⟩⟩ := he
    cases hbuild
    cases hsearch
    exact ⟨hengine, hreadBuild, hreadSearch⟩
  · exact fun h => h.imp fun e x he => ⟨he.engine, ⟨_, rfl, he.build⟩, ⟨_, rfl, he.search⟩⟩

theorem recordDocument_describes {config : Config} {entries : List Entry}
    {metrics : List Measurement} (h : List.Forall₂ (Entry.Spells readAs) entries metrics) :
    Describes readAs (recordDocument config entries).value config metrics :=
  ⟨⟨config.value, rfl, config_describes config⟩, ⟨_, rfl, describesMetrics_iff.2 h⟩⟩

theorem spells_of_describes {config config' : Config} {entries : List Entry}
    {metrics : List Measurement}
    (h : Describes readAs (recordDocument config entries).value config' metrics) :
    List.Forall₂ (Entry.Spells readAs) entries metrics := by
  obtain ⟨v, hv, hmetrics⟩ := h.metrics
  cases hv
  exact describesMetrics_iff.1 hmetrics

/-! ## Its text -/

/-- The spellings of an entry are the printed ones of a measurement. -/
structure Entry.Prints (e : Entry) (m : Measurement) : Prop where
  engine : m.engine = e.engine
  build : e.build.text = NumberStyle.file.text m.buildSeconds
  search : e.search.text = NumberStyle.file.text m.searchSeconds

theorem sameText_number {level : Nat} (name : String) {n : NumberLiteral} {text : List Char}
    (h : n.text = text) : SameText level (name, .number n) (name, .number text) :=
  ⟨rfl, h⟩

theorem config_text (c : Config) : c.value.text = Json.pretty 1 c.json := by
  apply Json.prettyObject_text
  exact .cons (sameText_number _ (Json.ofNatural_text _)) <|
    .cons (sameText_number _ (Json.ofNatural_text _)) <|
    .cons (sameText_number _ (Json.ofNatural_text _)) <|
    .cons (sameText_number _ (Json.ofNatural_text _)) <|
    .cons (sameText_number _ (Json.ofNatural_text _)) .nil

theorem entry_text {e : Entry} {m : Measurement} (h : e.Prints m) :
    e.value.text = Json.pretty 2 m.json := by
  apply Json.prettyObject_text
  exact .cons (sameText_number _ h.build) (.cons (sameText_number _ h.search) .nil)

/-- The document of a record with the printed spellings has the text that is printed. -/
theorem recordDocument_text {r : Record} {entries : List Entry}
    (h : List.Forall₂ Entry.Prints entries r.metrics) :
    (recordDocument r.config entries).text = r.encode.toList := by
  have hmetrics : (prettyObject 1 (entries.map fun e => (e.engine, e.value))).text =
      Json.pretty 1 (.object (r.metrics.map fun m => (m.engine, m.json))) := by
    apply Json.prettyObject_text
    rw [List.forall₂_map_left_iff, List.forall₂_map_right_iff]
    exact h.imp fun e m he => ⟨he.engine.symm, entry_text he⟩
  have hvalue : (recordDocument r.config entries).value.text = Json.pretty 0 r.json := by
    apply Json.prettyObject_text
    exact .cons ⟨rfl, config_text r.config⟩ (.cons ⟨rfl, hmetrics⟩ .nil)
  unfold Document.text
  rw [hvalue]
  simp [Record.encode, recordDocument, Json.blankText, Json.Blank.char]

end VectorBench
