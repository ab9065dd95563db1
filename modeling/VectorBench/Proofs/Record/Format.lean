import VectorBench.Proofs.Record.RoundTrip

/-!
# The format of printed records

What other readers of a printed record may rely on, said of the grammar alone: a record is printed
as one object and a line feed, every object has just the members of its kind in their order, a count
is printed as its digits, and a duration as a decimal to which it is the nearest 64-bit number.  No
control character stands in a string.

    r.encode.toList = v.text ++ ['\n'],  WritesRecord r v                           (encode_document)
-/

namespace VectorBench

open Json (Value Member Element StringPiece stringLiteral prettyObject)

namespace Json

/-! ## Members in their order -/

/-- An object whose members have the given names, in this order, and values as they are asked for. -/
def Value.HasFields (v : Value) (fields : List (String × (Value → Prop))) : Prop :=
  ∃ inside members, v = .object inside members ∧
    List.Forall₂ (fun m field => m.name.text = field.1 ∧ field.2 m.value) members fields

theorem prettyObject_hasFields {level : Nat} {pairs : List (String × Value)}
    {fields : List (String × (Value → Prop))}
    (h : List.Forall₂ (fun p field => p.1 = field.1 ∧ field.2 p.2) pairs fields) :
    (prettyObject level pairs).HasFields fields := by
  rw [← layoutMembers_map level pairs, List.forall₂_map_left_iff] at h
  exact ⟨[], _, rfl, h⟩

/-! ## Strings -/

mutual
/-- The strings in a value, the names of members included. -/
def Value.strings : Value → List (List StringPiece)
  | .null => []
  | .bool _ => []
  | .number _ => []
  | .string pieces => [pieces]
  | .array _ elements => elementStrings elements
  | .object _ members => memberStrings members

def elementStrings : List (Element Value) → List (List StringPiece)
  | [] => []
  | ⟨_, value, _⟩ :: rest => Value.strings value ++ elementStrings rest

def memberStrings : List (Member Value) → List (List StringPiece)
  | [] => []
  | ⟨_, name, _, _, value, _⟩ :: rest =>
    name.pieces :: (Value.strings value ++ memberStrings rest)
end

theorem HexDigit.not_control (d : HexDigit) : 0x20 ≤ d.char.toNat := by
  obtain ⟨value, upper⟩ := d
  revert value upper
  decide

theorem StringPiece.not_control {piece : StringPiece} {c : Char} (h : c ∈ piece.text) :
    0x20 ≤ c.toNat := by
  cases piece with
  | plain c' fits =>
    rw [List.mem_singleton.1 h]
    exact fits.1
  | escape e =>
    simp only [StringPiece.text, List.mem_cons, List.not_mem_nil, or_false] at h
    rcases h with rfl | rfl
    · decide
    · cases e <;> decide
  | code a b c' d =>
    simp only [StringPiece.text, List.mem_cons, List.not_mem_nil, or_false] at h
    rcases h with rfl | rfl | rfl | rfl | rfl | rfl
    · decide
    · decide
    all_goals exact HexDigit.not_control _

/-- There is no control character between the quotation marks of a string. -/
theorem stringLiteral_not_control {pieces : List StringPiece} {c : Char}
    (h : c ∈ stringLiteral pieces) : 0x20 ≤ c.toNat := by
  simp only [stringLiteral, List.mem_cons, List.mem_append, List.mem_flatMap, List.not_mem_nil,
    or_false] at h
  rcases h with rfl | ⟨piece, -, hpiece⟩ | rfl
  · decide
  · exact StringPiece.not_control hpiece
  · decide

end Json

/-! ## Records -/

/-- The natural number `x`, without sign, fraction and exponent. -/
def IsNatural (x : UInt64) (v : Value) : Prop :=
  ∃ n, v = .number n ∧ n.natural? = some x.toNat

/-- A number to which no 64-bit number is nearer than `x`. -/
def IsNearest (x : Binary64) (v : Value) : Prop :=
  ∃ n, v = .number n ∧ n.RoundsTo .even x

def WritesConfig (c : Config) (v : Value) : Prop :=
  v.HasFields [("n_samples", IsNatural c.samples), ("n_dims", IsNatural c.dims),
    ("n_queries", IsNatural c.queries), ("top_k", IsNatural c.topK), ("seed", IsNatural c.seed)]

def WritesMeasurement (m : Measurement) (v : Value) : Prop :=
  v.HasFields [("build_sec", IsNearest m.buildSeconds), ("search_sec", IsNearest m.searchSeconds)]

/-- An object with the measurements under the names of their engines. -/
def WritesMetrics (metrics : List Measurement) (v : Value) : Prop :=
  v.HasFields (metrics.map fun m => (m.engine, WritesMeasurement m))

def WritesRecord (r : Record) (v : Value) : Prop :=
  v.HasFields [("config", WritesConfig r.config), ("metrics", WritesMetrics r.metrics)]

theorem config_writes (c : Config) : WritesConfig c c.value := by
  refine Json.prettyObject_hasFields ?_
  have hnatural : ∀ x : UInt64, IsNatural x (.number (.ofNatural x.toNat)) := fun x =>
    ⟨_, rfl, Json.ofNatural_natural? x.toNat⟩
  exact .cons ⟨rfl, hnatural _⟩ <| .cons ⟨rfl, hnatural _⟩ <| .cons ⟨rfl, hnatural _⟩ <|
    .cons ⟨rfl, hnatural _⟩ <| .cons ⟨rfl, hnatural _⟩ .nil

theorem entry_writes {e : Entry} {m : Measurement}
    (h : e.Spells (Json.NumberLiteral.RoundsTo · .even) m) : WritesMeasurement m e.value :=
  Json.prettyObject_hasFields <|
    .cons ⟨rfl, _, rfl, h.build⟩ (.cons ⟨rfl, _, rfl, h.search⟩ .nil)

theorem recordDocument_writes {r : Record} {entries : List Entry}
    (h : List.Forall₂ (Entry.Spells (Json.NumberLiteral.RoundsTo · .even)) entries r.metrics) :
    WritesRecord r (recordDocument r.config entries).value := by
  have hmetrics : WritesMetrics r.metrics
      (prettyObject 1 (entries.map fun e => (e.engine, e.value))) := by
    refine Json.prettyObject_hasFields ?_
    rw [List.forall₂_map_left_iff, List.forall₂_map_right_iff]
    exact h.imp fun e m he => ⟨he.engine.symm, entry_writes he⟩
  exact Json.prettyObject_hasFields <|
    .cons ⟨rfl, config_writes r.config⟩ (.cons ⟨rfl, hmetrics⟩ .nil)

/-- A record is printed as one value of the grammar and a line feed.  The value has the parts of the
record and nothing else, and no control character stands in one of its strings. -/
theorem encode_document (r : Record) :
    ∃ v : Value, r.encode.toList = v.text ++ ['\n'] ∧ WritesRecord r v ∧
      ∀ pieces ∈ v.strings, ∀ c ∈ stringLiteral pieces, 0x20 ≤ c.toNat := by
  have hfit := checkParts_eq_ok_iff.1 r.fit
  obtain ⟨entries, hprints, -, hnearest⟩ :=
    exists_entries fun m hm => ⟨hfit.build m hm, hfit.search m hm⟩
  refine ⟨(recordDocument r.config entries).value, (recordDocument_text hprints).symm,
    recordDocument_writes hnearest, fun pieces _ c hc => Json.stringLiteral_not_control hc⟩

end VectorBench
