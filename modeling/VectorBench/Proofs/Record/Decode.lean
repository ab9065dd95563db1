import VectorBench.Proofs.Json.Members
import VectorBench.Proofs.Record.Fit
import VectorBench.Proofs.Record.Gives
import VectorBench.Record.Text

/-!
# What texts hold records

A document is read as the record that it gives, and is refused when it gives none or one in which
something is wrong.  Nothing else about the document matters.

    Record.decode d.text = .ok r ↔ GivesRecord True r.config r.metrics d.value    (decode_eq_ok_iff)
-/

namespace VectorBench

open Json (RawValue RawMember NumberLiteral FieldMeaning Meaning Cursor Blank Ends Yields Document
  RawDocument Shape blankText)

variable {α γ : Type}

/-! ## Fields -/

/-- A field that its value sets and nothing else changes. -/
def Json.FieldMeaning.ofLens (field : Shape.Field α) (of : RawValue → Option γ)
    (set : γ → α → α) (get : α → γ)
    (reads : ∀ {v : RawValue} {c : Cursor} {blanks : List Blank} {rest : List Char}, Ends rest →
      c.rest = blankText blanks ++ (v.text ++ rest) →
      Yields (field.read c) ((of v).map set) rest)
    (get_set : ∀ x a, get (set x a) = x) : FieldMeaning α where
  field := field
  change v := (of v).map set
  Holds v a := of v = some (get a)
  reads := reads
  holds := by
    intro v g a h
    obtain ⟨x, hx, rfl⟩ := Option.map_eq_some_iff.1 h
    rw [get_set]
    exact hx
  exists_change := by
    intro v a h
    exact ⟨set (get a), by rw [h, Option.map_some]⟩

def naturalPart (name expected : String) (set : UInt64 → α → α) (get : α → UInt64)
    (get_set : ∀ x a, get (set x a) = x) : FieldMeaning α :=
  .ofLens (naturalField name expected set) RawValue.natural? set get
    (fun hr h => (Json.readNatural_text expected hr h).map set) get_set

def secondsPart (name : String) (set : Binary64 → α → α) (get : α → Binary64)
    (get_set : ∀ x a, get (set x a) = x) : FieldMeaning α :=
  .ofLens (secondsField name set) RawValue.binary? set get
    (fun hr h => (Json.readFloat_text "f64" hr h).map set) get_set

theorem natural?_eq_some (x : UInt64) : (fun v : RawValue => v.natural? = some x) = GivesNatural x :=
  funext fun _ => propext RawValue.natural?_eq_some_iff

theorem binary?_eq_some (x : Binary64) : (fun v : RawValue => v.binary? = some x) = GivesSeconds x :=
  funext fun _ => propext RawValue.binary?_eq_some_iff

/-! ## Configurations -/

namespace Config

def parts : List (FieldMeaning Config) := [
  naturalPart "n_samples" "usize" (fun value c => { c with samples := value }) (·.samples)
    fun _ _ => rfl,
  naturalPart "n_dims" "usize" (fun value c => { c with dims := value }) (·.dims) fun _ _ => rfl,
  naturalPart "n_queries" "usize" (fun value c => { c with queries := value }) (·.queries)
    fun _ _ => rfl,
  naturalPart "top_k" "usize" (fun value c => { c with topK := value }) (·.topK) fun _ _ => rfl,
  naturalPart "seed" "u64" (fun value c => { c with seed := value }) (·.seed) fun _ _ => rfl]

def meaning : Meaning shape where
  parts := parts
  fields_eq := rfl
  nodup := by decide
  Kept _ := True
  kept_blank := trivial
  kept_change _ _ _ := trivial
  holds_change := by
    intro p q v w g a hp hq hne hg hv
    simp only [parts, List.mem_cons, List.not_mem_nil, or_false] at hp hq
    rcases hp with rfl | rfl | rfl | rfl | rfl <;> rcases hq with rfl | rfl | rfl | rfl | rfl <;>
      first
      | exact absurd rfl hne
      | (obtain ⟨x, -, rfl⟩ := Option.map_eq_some_iff.1 hg
         exact hv)
  ext := by
    intro a b _ _ h
    obtain ⟨samples, dims, queries, topK, seed⟩ := a
    simp only [parts, List.forall_mem_cons] at h
    obtain ⟨⟨v1, h1, k1⟩, ⟨v2, h2, k2⟩, ⟨v3, h3, k3⟩, ⟨v4, h4, k4⟩, ⟨v5, h5, k5⟩, -⟩ := h
    cases Option.some.inj (h1.symm.trans k1)
    cases Option.some.inj (h2.symm.trans k2)
    cases Option.some.inj (h3.symm.trans k3)
    cases Option.some.inj (h4.symm.trans k4)
    cases Option.some.inj (h5.symm.trans k5)
    rfl

end Config

variable {c : Cursor} {blanks : List Blank} {rest : List Char} {v : RawValue}

theorem collect_config_iff {config : Config} :
    Config.meaning.collect v = some config ↔ GivesConfig True config v := by
  have hfields : Config.meaning.fieldsOf config = [("n_samples", GivesNatural config.samples),
      ("n_dims", GivesNatural config.dims), ("n_queries", GivesNatural config.queries),
      ("top_k", GivesNatural config.topK), ("seed", GivesNatural config.seed)] := by
    simp only [← natural?_eq_some]
    rfl
  rw [Meaning.collect_eq_some_iff, hfields]
  exact and_iff_right trivial

/-! ## Measurements -/

namespace Measurement

def parts : List (FieldMeaning Measurement) := [
  secondsPart "build_sec" (fun value m => { m with buildSeconds := value }) (·.buildSeconds)
    fun _ _ => rfl,
  secondsPart "search_sec" (fun value m => { m with searchSeconds := value }) (·.searchSeconds)
    fun _ _ => rfl]

def meaning (engine : String) : Meaning (shape engine) where
  parts := parts
  fields_eq := rfl
  nodup := by decide
  Kept m := m.engine = engine
  kept_blank := rfl
  kept_change := by
    intro p w g a hp hg ha
    simp only [parts, List.mem_cons, List.not_mem_nil, or_false] at hp
    rcases hp with rfl | rfl
    · obtain ⟨x, -, rfl⟩ := Option.map_eq_some_iff.1 hg
      exact ha
    · obtain ⟨x, -, rfl⟩ := Option.map_eq_some_iff.1 hg
      exact ha
  holds_change := by
    intro p q v w g a hp hq hne hg hv
    simp only [parts, List.mem_cons, List.not_mem_nil, or_false] at hp hq
    rcases hp with rfl | rfl <;> rcases hq with rfl | rfl <;>
      first
      | exact absurd rfl hne
      | (obtain ⟨x, -, rfl⟩ := Option.map_eq_some_iff.1 hg
         exact hv)
  ext := by
    intro a b ha hb h
    obtain ⟨name, build, search⟩ := a
    simp only [parts, List.forall_mem_cons] at h
    obtain ⟨⟨v1, h1, k1⟩, ⟨v2, h2, k2⟩, -⟩ := h
    cases Option.some.inj (h1.symm.trans k1)
    cases Option.some.inj (h2.symm.trans k2)
    cases ha.trans hb.symm
    rfl

end Measurement

theorem collect_measurement_iff {engine : String} {x : Measurement} :
    (Measurement.meaning engine).collect v = some x ↔
      x.engine = engine ∧ GivesMeasurement True x v := by
  have hfields : (Measurement.meaning engine).fieldsOf x =
      [("build_sec", GivesSeconds x.buildSeconds), ("search_sec", GivesSeconds x.searchSeconds)] := by
    simp only [← binary?_eq_some]
    rfl
  rw [Meaning.collect_eq_some_iff, hfields]
  exact Iff.rfl

/-- The measurements of some members, behind the ones `read` before, if no two have one name. -/
def collectMetrics (read : List Measurement) : List (RawMember RawValue) → Option (List Measurement)
  | [] => some read.reverse
  | m :: members =>
    match m.name? with
    | none => none
    | some engine =>
      match (Measurement.meaning engine).collect m.value with
      | none => none
      | some x =>
        if read.any fun other => other.engine == engine then none
        else collectMetrics (x :: read) members

theorem readMetricMembers_text {members : List (RawMember RawValue)} {read : List Measurement}
    {steps : Nat} (hs : members.length < steps)
    (h : c.rest = blankText blanks ++ (RawValue.membersText read.isEmpty members ++ '}' :: rest)) :
    Yields (readMetricMembers steps read c) (collectMetrics read members) rest := by
  induction members generalizing steps read c blanks with
  | nil =>
    obtain ⟨steps, rfl⟩ : ∃ k, steps = k + 1 := ⟨steps - 1, by omega⟩
    obtain ⟨c', hkey, hrest⟩ := Json.nextKey_end read.isEmpty h
    refine ⟨c'.advance, ?_, Json.advance_rest hrest⟩
    unfold readMetricMembers
    simp only [hkey]
  | cons m members ih =>
    obtain ⟨steps, rfl⟩ : ∃ k, steps = k + 1 := ⟨steps - 1, by omega⟩
    have hlen : members.length < steps := by
      rw [List.length_cons] at hs
      omega
    have hnext := Json.nextKey_text read.isEmpty h
    unfold readMetricMembers collectMetrics
    cases hname : m.name? with
    | none =>
      rw [hname] at hnext
      obtain ⟨e, he⟩ := hnext
      simp only [he]
      exact ⟨e, rfl⟩
    | some engine =>
      rw [hname] at hnext
      obtain ⟨c1, hkey, hc1⟩ := hnext
      obtain ⟨c2, hcolon, hc2⟩ := Json.readColon_text hc1
      have hread := (Measurement.meaning engine).read_text hc2
      simp only [hkey, hcolon]
      cases hcollect : (Measurement.meaning engine).collect m.value with
      | none =>
        rw [hcollect] at hread
        obtain ⟨e, he⟩ := hread
        simp only [he]
        exact ⟨e, rfl⟩
      | some x =>
        rw [hcollect] at hread
        obtain ⟨c3, hshape, hc3⟩ := hread
        simp only [hshape]
        split
        · exact Meaning.failInObject_error c3 _
        · have hrest : c3.rest = blankText m.after ++
              (RawValue.membersText (x :: read).isEmpty members ++ '}' :: rest) := hc3
          exact ih hlen hrest

theorem any_engine_iff {read : List Measurement} {engine : String} :
    (read.any fun other => other.engine == engine) = true ↔ engine ∈ read.map (·.engine) := by
  simp [List.any_eq_true]

/-- A member gives a measurement under the name of its engine. -/
def GivesEntry (m : RawMember RawValue) (x : Measurement) : Prop :=
  m.name? = some x.engine ∧ GivesMeasurement True x m.value

/-- Measurements are collected from members that give them and that differ in name. -/
theorem collectMetrics_eq_some_iff {members : List (RawMember RawValue)}
    {read metrics : List Measurement} (hread : (read.map (·.engine)).Nodup) :
    collectMetrics read members = some metrics ↔
      ∃ more, metrics = read.reverse ++ more ∧ List.Forall₂ GivesEntry members more ∧
        (metrics.map (·.engine)).Nodup := by
  induction members generalizing read with
  | nil =>
    simp only [collectMetrics, Option.some.injEq, List.forall₂_nil_left_iff]
    constructor
    · rintro rfl
      refine ⟨[], by simp, rfl, ?_⟩
      rw [List.map_reverse, List.nodup_reverse]
      exact hread
    · rintro ⟨more, rfl, rfl, -⟩
      rw [List.append_nil]
  | cons m members ih =>
    constructor
    · intro h
      simp only [collectMetrics] at h
      cases hname : m.name? with
      | none =>
        simp only [hname] at h
        cases h
      | some engine =>
        simp only [hname, any_engine_iff] at h
        split at h
        · cases h
        · rename_i x hx
          obtain ⟨rfl, hgives⟩ := collect_measurement_iff.1 hx
          split at h
          · cases h
          · rename_i hnew
            have hnodup : ((x :: read).map (·.engine)).Nodup := List.nodup_cons.2 ⟨hnew, hread⟩
            obtain ⟨more, rfl, hall, hmore⟩ := (ih hnodup).1 h
            exact ⟨x :: more, by simp, List.Forall₂.cons ⟨hname, hgives⟩ hall, hmore⟩
    · rintro ⟨more, rfl, hall, hnodup⟩
      obtain ⟨x, more, ⟨hname, hgives⟩, hrest, rfl⟩ := List.forall₂_cons_left_iff.1 hall
      have hnew : x.engine ∉ read.map (·.engine) := by
        intro hin
        rw [List.map_append, List.nodup_append] at hnodup
        refine hnodup.2.2 x.engine ?_ x.engine (List.mem_map_of_mem List.mem_cons_self) rfl
        rw [List.map_reverse, List.mem_reverse]
        exact hin
      have hnodup' : ((x :: read).map (·.engine)).Nodup := List.nodup_cons.2 ⟨hnew, hread⟩
      simp only [collectMetrics, hname, collect_measurement_iff.2 ⟨rfl, hgives⟩, any_engine_iff,
        if_neg hnew]
      rw [ih hnodup']
      exact ⟨more, by simp, hrest, hnodup⟩

def metrics? : RawValue → Option (List Measurement)
  | .object _ members => collectMetrics [] members
  | _ => none

theorem metrics?_eq_some_iff {metrics : List Measurement} :
    metrics? v = some metrics ↔
      GivesMetrics True metrics v ∧ (metrics.map (·.engine)).Nodup := by
  have hnil : (([] : List Measurement).map (·.engine)).Nodup := List.nodup_nil
  constructor
  · intro h
    cases v with
    | object inside members =>
      obtain ⟨more, rfl, hall, hnodup⟩ := (collectMetrics_eq_some_iff hnil).1 h
      exact ⟨⟨_, _, rfl, hall⟩, hnodup⟩
    | _ => cases h
  · rintro ⟨⟨inside, members, rfl, hall⟩, hnodup⟩
    exact (collectMetrics_eq_some_iff hnil).2 ⟨metrics, rfl, hall, hnodup⟩

theorem readMetrics_text (h : c.rest = blankText blanks ++ (v.text ++ rest)) :
    Yields (readMetrics c) (metrics? v) rest := by
  obtain ⟨x, tail, hx, hblank, -, -, hobject, -⟩ := v.text_head rest
  have hhead : c.skipBlanks.rest = v.text ++ rest := by
    rw [hx] at h ⊢
    exact Json.skipBlanks_rest_eq h hblank
  unfold readMetrics
  cases v with
  | object inside members =>
    simp only [RawValue.text, List.cons_append, List.append_assoc, List.nil_append] at hhead
    have hsteps : members.length <
        (blankText inside ++ (RawValue.membersText true members ++ '}' :: rest)).length + 1 := by
      have := Meaning.length_le_membersText true members
      simp only [List.length_append]
      omega
    simp only [hhead, if_true]
    exact readMetricMembers_text hsteps (Json.advance_rest hhead)
  | _ =>
    rw [hx] at hhead
    have hnot : x ≠ '{' := hobject
    simp only [hhead, if_neg hnot]
    exact Json.wrongType_error _ x _

/-! ## Records -/

namespace RecordDocument

def parts : List (FieldMeaning RecordDocument) := [
  .ofLens ⟨"config", fun c =>
      (Config.shape.read c).map fun (config, c) => (fun document => { document with config }, c)⟩
    Config.meaning.collect (fun config document => { document with config }) (·.config)
    (fun _ h => (Config.meaning.read_text h).map _) fun _ _ => rfl,
  .ofLens ⟨"metrics", fun c =>
      (readMetrics c).map fun (metrics, c) => (fun document => { document with metrics }, c)⟩
    metrics? (fun metrics document => { document with metrics }) (·.metrics)
    (fun _ h => (readMetrics_text h).map _) fun _ _ => rfl]

def meaning : Meaning shape where
  parts := parts
  fields_eq := rfl
  nodup := by decide
  Kept _ := True
  kept_blank := trivial
  kept_change _ _ _ := trivial
  holds_change := by
    intro p q v w g a hp hq hne hg hv
    simp only [parts, List.mem_cons, List.not_mem_nil, or_false] at hp hq
    rcases hp with rfl | rfl <;> rcases hq with rfl | rfl <;>
      first
      | exact absurd rfl hne
      | (obtain ⟨x, -, rfl⟩ := Option.map_eq_some_iff.1 hg
         exact hv)
  ext := by
    intro a b _ _ h
    obtain ⟨config, metrics⟩ := a
    simp only [parts, List.forall_mem_cons] at h
    obtain ⟨⟨v1, h1, k1⟩, ⟨v2, h2, k2⟩, -⟩ := h
    cases Option.some.inj (h1.symm.trans k1)
    cases Option.some.inj (h2.symm.trans k2)
    rfl

end RecordDocument

theorem collect_record_iff {config : Config} {metrics : List Measurement} :
    RecordDocument.meaning.collect v = some ⟨config, metrics⟩ ↔
      GivesRecord True config metrics v ∧ (metrics.map (·.engine)).Nodup := by
  have hfields : RecordDocument.meaning.fieldsOf ⟨config, metrics⟩ = [
      ("config", fun w => Config.meaning.collect w = some config),
      ("metrics", fun w => metrics? w = some metrics)] := rfl
  rw [Meaning.collect_eq_some_iff, hfields]
  simp only [collect_config_iff, metrics?_eq_some_iff]
  constructor
  · rintro ⟨-, hgives⟩
    cases hgives with
    | named hnames hall =>
      simp only [List.forall_mem_cons] at hall
      obtain ⟨hconfig, ⟨w, hw, hmetrics, hnodup⟩, -⟩ := hall
      refine ⟨.named hnames ?_, hnodup⟩
      simp only [List.forall_mem_cons]
      exact ⟨hconfig, ⟨w, hw, hmetrics⟩, List.forall_mem_nil _⟩
    | listed hlists hall =>
      cases hall with
      | cons hconfig hall =>
        cases hall with
        | cons hmetrics hnil =>
          exact ⟨.listed hlists (.cons hconfig (.cons hmetrics.1 hnil)), hmetrics.2⟩
  · rintro ⟨hgives, hnodup⟩
    refine ⟨trivial, ?_⟩
    cases hgives with
    | named hnames hall =>
      simp only [List.forall_mem_cons] at hall
      obtain ⟨hconfig, ⟨w, hw, hmetrics⟩, -⟩ := hall
      refine .named hnames ?_
      simp only [List.forall_mem_cons]
      exact ⟨hconfig, ⟨w, hw, hmetrics, hnodup⟩, List.forall_mem_nil _⟩
    | listed hlists hall =>
      cases hall with
      | cons hconfig hall =>
        cases hall with
        | cons hmetrics hnil =>
          exact .listed hlists (.cons hconfig (.cons ⟨hmetrics, hnodup⟩ hnil))

/-! ## Texts -/

theorem toList_text (d : RawDocument) : (Cursor.ofText (String.ofList d.text)).rest = d.text := by
  simp [Cursor.ofText]

/-- A text yields the parts that its document has. -/
theorem readDocument_eq_ok_iff (d : RawDocument) {parts : RecordDocument} :
    Json.readDocument RecordDocument.shape.read (String.ofList d.text) = .ok parts ↔
      RecordDocument.meaning.collect d.value = some parts := by
  have hread := RecordDocument.meaning.read_text ((toList_text d).trans rfl)
  unfold Json.readDocument
  cases hcollect : RecordDocument.meaning.collect d.value with
  | none =>
    rw [hcollect] at hread
    obtain ⟨e, he⟩ := hread
    simp [he]
  | some found =>
    rw [hcollect] at hread
    obtain ⟨c, hc, hrest⟩ := hread
    have hend := Json.skipBlanks_rest_nil hrest
    simp [hc, hend]

/-- A text is read as the record that its document gives. -/
theorem decode_eq_ok_iff (d : RawDocument) {r : Record} :
    Record.decode (String.ofList d.text) = .ok r ↔ GivesRecord True r.config r.metrics d.value := by
  have hdistinct := (checkParts_eq_ok_iff.1 r.fit).distinct
  rw [← and_iff_left (a := GivesRecord True r.config r.metrics d.value) hdistinct,
    ← collect_record_iff, ← readDocument_eq_ok_iff]
  unfold Record.decode
  constructor
  · intro h
    split at h
    · cases h
    · rename_i parts hparts
      split at h
      · cases h
      · rename_i record hrecord
        cases h
        obtain ⟨hconfig, hmetrics⟩ := Record.ofParts_eq_ok hrecord
        rw [hparts, hconfig, hmetrics]
  · intro h
    simp only [h, Record.ofParts_self]

/-- A text of which the document describes parts is read as the record of these parts, if they make
one. -/
theorem decode_of_describes {d : Document} (hd : HasObjects d.value) {config : Config}
    {metrics : List Measurement}
    (h : Describes NumberLiteral.ReadAs d.value config metrics) (hfit : Fit config metrics) :
    Record.decode (String.ofList d.text) =
      .ok ⟨config, metrics, checkParts_eq_ok_iff.2 hfit⟩ := by
  rw [← d.raw_text, decode_eq_ok_iff]
  exact (givesRecord_raw_iff hd).2 h

theorem describes_of_decode {d : Document} (hd : HasObjects d.value) {r : Record}
    (h : Record.decode (String.ofList d.text) = .ok r) :
    Describes NumberLiteral.ReadAs d.value r.config r.metrics := by
  rw [← d.raw_text, decode_eq_ok_iff] at h
  exact (givesRecord_raw_iff hd).1 h

end VectorBench
