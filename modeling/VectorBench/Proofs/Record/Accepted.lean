import VectorBench.Proofs.Json.WellFormed
import VectorBench.Proofs.Record.Decode
import VectorBench.Store

/-!
# Accepted texts

Every text that is read as a record is the text of a document, and this document gives the record.
Where a value that gives a record ends does not depend on what follows: of two such values at the
start of one text each is the other, as far as records go, and the same text is left behind them.

    Record.decode text = .ok r →
      ∃ d : RawDocument, d.text = text.toList ∧ GivesRecord True r.config r.metrics d.value
                                                                              (exists_document_of_decode)
-/

namespace VectorBench

open Json (RawValue RawDocument Cursor Blank ReadsValues Bracket blankText)

variable {c c' : Cursor} {text : String} {r r' : Record}

/-! ## Readers of the parts of records -/

theorem naturalField_readsValues {α : Type} (name expected : String) (set : UInt64 → α → α) :
    ReadsValues (naturalField name expected set).read :=
  (Json.readNatural_readsValues expected).map set

theorem secondsField_readsValues {α : Type} (name : String) (set : Binary64 → α → α) :
    ReadsValues (secondsField name set).read :=
  (Json.readFloat_readsValues "f64").map set

theorem Config.shape_readsValues : ReadsValues Config.shape.read := by
  refine Json.Shape.read_readsValues fun field hfield => ?_
  simp only [shape, List.mem_cons, List.not_mem_nil, or_false] at hfield
  rcases hfield with rfl | rfl | rfl | rfl | rfl
  all_goals exact naturalField_readsValues _ _ _

theorem Measurement.shape_readsValues (engine : String) :
    ReadsValues (Measurement.shape engine).read := by
  refine Json.Shape.read_readsValues fun field hfield => ?_
  simp only [shape, List.mem_cons, List.not_mem_nil, or_false] at hfield
  rcases hfield with rfl | rfl
  all_goals exact secondsField_readsValues _ _

theorem closes_of_readMetricMembers {steps : Nat} {read metrics : List Measurement}
    (h : readMetricMembers steps read c = .ok (metrics, c')) :
    Bracket.object.Closes read.isEmpty c.rest c'.rest := by
  induction steps generalizing read c with
  | zero => cases h
  | succ steps ih =>
    unfold readMetricMembers at h
    split at h
    · cases h
    · rename_i c1 hkey
      cases h
      exact Json.closes_of_nextKey_none hkey
    · rename_i engine c1 hkey
      split at h
      · cases h
      · rename_i c2 hcolon
        split at h
        · cases h
        · rename_i m c3 hread
          split at h
          · obtain ⟨e, he⟩ := Json.Meaning.failInObject_error (ε := List Measurement × Cursor) c3
              (.duplicateEngine engine)
            rw [he] at h
            cases h
          · have hvalue := Measurement.shape_readsValues engine _ _ _ hread
            exact Json.closes_of_member hkey hcolon hvalue (ih h)

theorem readMetrics_readsValues : ReadsValues readMetrics := by
  intro c metrics c' h
  obtain ⟨blanks, hblanks⟩ := Json.exists_blanks c
  rw [hblanks]
  unfold readMetrics at h
  simp only at h
  split at h
  · cases h
  · rename_i x tail hx
    split at h
    · rename_i hobject
      obtain ⟨inside, members, hmembers⟩ := closes_of_readMetricMembers h
      rw [Json.advance_rest hx] at hmembers
      refine ⟨blanks, .object inside members, ?_⟩
      rw [hx, hobject, hmembers]
      simp [RawValue.text]
    · obtain ⟨e, he⟩ := Json.wrongType_error (α := List Measurement × Cursor)
        "an object keyed by engine name" x c.skipBlanks
      rw [he] at h
      cases h

theorem RecordDocument.shape_readsValues : ReadsValues RecordDocument.shape.read := by
  refine Json.Shape.read_readsValues fun field hfield => ?_
  simp only [shape, List.mem_cons, List.not_mem_nil, or_false] at hfield
  rcases hfield with rfl | rfl
  · exact Config.shape_readsValues.map fun config (document : RecordDocument) =>
      { document with config := config }
  · exact readMetrics_readsValues.map fun metrics (document : RecordDocument) =>
      { document with metrics := metrics }

/-! ## Accepted texts -/

/-- Whatever document an accepted text is, it gives the record. -/
theorem decode_iff_of_text {d : RawDocument} (hd : d.text = text.toList) :
    Record.decode text = .ok r ↔ GivesRecord True r.config r.metrics d.value := by
  rw [← decode_eq_ok_iff, hd, String.ofList_toList]

/-- An accepted text is that of a document. -/
theorem exists_document_of_decode (h : Record.decode text = .ok r) :
    ∃ d : RawDocument, d.text = text.toList ∧ GivesRecord True r.config r.metrics d.value := by
  have hread : ∃ parts, Json.readDocument RecordDocument.shape.read text = .ok parts := by
    unfold Record.decode at h
    split at h
    · cases h
    · rename_i parts hparts
      exact ⟨parts, hparts⟩
  obtain ⟨parts, hparts⟩ := hread
  obtain ⟨d, hd⟩ := Json.exists_document RecordDocument.shape_readsValues hparts
  exact ⟨d, hd, (decode_iff_of_text hd).1 h⟩

def Malformed (text : String) : Prop :=
  ∃ e, (Record.decode text).mapError StoreError.malformed = .error (.malformed e)

/-- A text that is not accepted is malformed. -/
theorem malformed_of_not_accepted (h : ∀ r, Record.decode text ≠ .ok r) : Malformed text := by
  cases hdecode : Record.decode text with
  | error e => exact ⟨e, by rw [hdecode]; rfl⟩
  | ok r => exact absurd hdecode (h r)

/-! ## Where a record ends -/

variable {v v' : RawValue} {blanks blanks' : List Blank} {rest rest' : List Char}

/-- A value that gives a record is read to its end, whatever follows. -/
theorem read_givesRecord (h : GivesRecord True r.config r.metrics v)
    (hc : c.rest = blankText blanks ++ (v.text ++ rest)) :
    ∃ c', RecordDocument.shape.read c = .ok (⟨r.config, r.metrics⟩, c') ∧ c'.rest = rest := by
  have hread := RecordDocument.meaning.read_text hc
  rwa [collect_record_iff.2 ⟨h, (checkParts_eq_ok_iff.1 r.fit).distinct⟩] at hread

/-- Of two values at the start of one text that give records, the same text is left. -/
theorem rest_eq_of_givesRecord (h : GivesRecord True r.config r.metrics v)
    (h' : GivesRecord True r'.config r'.metrics v')
    (htext : blankText blanks ++ (v.text ++ rest) = blankText blanks' ++ (v'.text ++ rest')) :
    rest = rest' := by
  obtain ⟨c, hread, hrest⟩ := read_givesRecord (c := ⟨_, .start⟩) h rfl
  obtain ⟨c', hread', hrest'⟩ := read_givesRecord (c := ⟨_, .start⟩) h' rfl
  rw [htext, hread'] at hread
  have hcursor : c' = c := (Prod.ext_iff.1 (Except.ok.inj hread)).2
  rw [← hrest, ← hrest', hcursor]

end VectorBench
