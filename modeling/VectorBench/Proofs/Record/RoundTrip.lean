import VectorBench.Proofs.Record.Decode
import VectorBench.Proofs.Record.Layout

/-!
# Records read back

What is printed of a record is the text of a document that describes it, and so it is read as this
record.

    Record.decode r.encode = .ok r                                                   (decode_encode)
-/

namespace VectorBench

open Json (NumberLiteral)

/-- The printed spellings of a measurement are read as its durations, which are the nearest numbers
to them. -/
theorem exists_entry {m : Measurement} (hbuild : IsSeconds m.buildSeconds)
    (hsearch : IsSeconds m.searchSeconds) :
    ∃ e : Entry, e.Prints m ∧ e.Spells NumberLiteral.ReadAs m ∧
      e.Spells (NumberLiteral.RoundsTo · .even) m := by
  obtain ⟨build, hbuildText, hbuildRead, hbuildNearest⟩ := Json.exists_binary hbuild.finite
  obtain ⟨search, hsearchText, hsearchRead, hsearchNearest⟩ := Json.exists_binary hsearch.finite
  exact ⟨⟨m.engine, build, search⟩, ⟨rfl, hbuildText, hsearchText⟩, ⟨rfl, hbuildRead, hsearchRead⟩,
    ⟨rfl, hbuildNearest, hsearchNearest⟩⟩

theorem exists_entries {metrics : List Measurement}
    (h : ∀ m ∈ metrics, IsSeconds m.buildSeconds ∧ IsSeconds m.searchSeconds) :
    ∃ entries, List.Forall₂ Entry.Prints entries metrics ∧
      List.Forall₂ (Entry.Spells NumberLiteral.ReadAs) entries metrics ∧
      List.Forall₂ (Entry.Spells (NumberLiteral.RoundsTo · .even)) entries metrics := by
  induction metrics with
  | nil => exact ⟨[], .nil, .nil, .nil⟩
  | cons m metrics ih =>
    obtain ⟨hm, hrest⟩ := List.forall_mem_cons.1 h
    obtain ⟨e, hprints, hspells, hnearest⟩ := exists_entry hm.1 hm.2
    obtain ⟨entries, hprintAll, hspellAll, hnearestAll⟩ := ih hrest
    exact ⟨e :: entries, .cons hprints hprintAll, .cons hspells hspellAll,
      .cons hnearest hnearestAll⟩

/-- What is printed of a record is read as this record. -/
theorem decode_encode (r : Record) : Record.decode r.encode = .ok r := by
  have hfit := checkParts_eq_ok_iff.1 r.fit
  obtain ⟨entries, hprints, hspells, -⟩ :=
    exists_entries fun m hm => ⟨hfit.build m hm, hfit.search m hm⟩
  have htext : String.ofList (recordDocument r.config entries).text = r.encode := by
    rw [recordDocument_text hprints, String.ofList_toList]
  rw [← htext]
  exact decode_of_describes (recordDocument_hasObjects r.config entries)
    (recordDocument_describes hspells) hfit

/-- Parts that make a record are printed and read back: the configuration, the names of the engines
in their order, and the durations bit by bit. -/
theorem decode_encode_ofParts (config : Config) (metrics : List Measurement) (r : Record)
    (h : Record.ofParts config metrics = .ok r) :
    ∃ s, Record.decode r.encode = .ok s ∧ s.config = config ∧ s.metrics = metrics ∧
      s.metrics.map (·.engine) = metrics.map (·.engine) ∧
      s.metrics.map (·.buildSeconds.toBits) = metrics.map (·.buildSeconds.toBits) ∧
      s.metrics.map (·.searchSeconds.toBits) = metrics.map (·.searchSeconds.toBits) := by
  obtain ⟨rfl, rfl⟩ := Record.ofParts_eq_ok h
  exact ⟨r, decode_encode r, rfl, rfl, rfl, rfl, rfl⟩

def largestConfig : Config := ⟨.ofNat (2 ^ 64 - 1), .ofNat (2 ^ 64 - 1), 1, 1, .ofNat (2 ^ 64 - 1)⟩

/-- Names that need escapes, a negative zero, the least positive and the largest finite number. -/
def extremeMetrics : List Measurement := [
  ⟨"a\"b\\c\n\x01", .zero true, .ofBits .double 1⟩,
  ⟨"𝄞", .ofBits .double 0x7fefffffffffffff, .zero false⟩]

theorem decode_encode_extreme :
    ∃ r, Record.ofParts largestConfig extremeMetrics = .ok r ∧
      ∃ s, Record.decode r.encode = .ok s ∧ s.config = largestConfig ∧ s.metrics = extremeMetrics := by
  have hfit : checkParts largestConfig extremeMetrics = .ok () := by decide
  have hr := Record.ofParts_self ⟨largestConfig, extremeMetrics, hfit⟩
  obtain ⟨s, hs, hconfig, hmetrics, -⟩ := decode_encode_ofParts _ _ _ hr
  exact ⟨_, hr, s, hs, hconfig, hmetrics⟩

end VectorBench
