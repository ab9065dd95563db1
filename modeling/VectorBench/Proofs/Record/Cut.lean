import VectorBench.Proofs.Record.Accepted
import VectorBench.Proofs.Record.RoundTrip

/-!
# Texts that were cut or continued

A printed record is its value and a line feed.  A text that starts with the value is accepted when
nothing but blanks follows, and no text that ends within the value is accepted, wherever it was cut:
in a name, in an escape, in a number or between two entries.

    p ++ s = r.encode → (Record.decode p = .ok r' ↔ r' = r ∧ (s = "" ∨ s = "\n"))   (decode_prefix_iff)
    Record.decode (r.encode ++ more) = .ok r' ↔
      r' = r ∧ ∀ c ∈ more.toList, ∃ b : Blank, b.char = c                      (decode_continued_iff)
-/

namespace VectorBench

open Json (RawValue RawDocument Blank blankText)

/-- A printed record is a value that gives the record, and a line feed. -/
theorem exists_encode_value (r : Record) :
    ∃ v : RawValue, r.encode.toList = v.text ++ ['\n'] ∧
      GivesRecord True r.config r.metrics v := by
  have hfit := checkParts_eq_ok_iff.1 r.fit
  obtain ⟨entries, hprints, hspells, -⟩ :=
    exists_entries fun m hm => ⟨hfit.build m hm, hfit.search m hm⟩
  refine ⟨(recordDocument r.config entries).value.raw, ?_, ?_⟩
  · rw [Json.raw_text, ← recordDocument_text hprints]
    rfl
  · exact (givesRecord_raw_iff (recordDocument_hasObjects _ _)).2 (recordDocument_describes hspells)

/-- A text that starts with a value that gives a record is accepted when only blanks follow, and it
is this record then. -/
theorem decode_value_iff {r r' : Record} {v : RawValue} {text : String} {rest : List Char}
    (hv : GivesRecord True r.config r.metrics v) (htext : text.toList = v.text ++ rest) :
    Record.decode text = .ok r' ↔ r' = r ∧ ∃ blanks : List Blank, rest = blankText blanks := by
  constructor
  · intro h
    obtain ⟨d, hd, hgives⟩ := exists_document_of_decode h
    have hsame : blankText [] ++ (v.text ++ rest) =
        blankText d.before ++ (d.value.text ++ blankText d.after) := htext.symm.trans hd.symm
    have hrest := rest_eq_of_givesRecord hv hgives hsame
    have hvalue : Record.decode text = .ok r :=
      (decode_iff_of_text (d := ⟨[], v, d.after⟩) (by rw [htext, hrest]; rfl)).2 hv
    rw [h] at hvalue
    exact ⟨Except.ok.inj hvalue, d.after, hrest⟩
  · rintro ⟨rfl, blanks, rfl⟩
    exact (decode_iff_of_text (d := ⟨[], v, blanks⟩) htext.symm).2 hv

theorem exists_blankText_iff {text : List Char} :
    (∃ blanks, text = blankText blanks) ↔ ∀ c ∈ text, ∃ b : Blank, b.char = c := by
  constructor
  · rintro ⟨blanks, rfl⟩ c hc
    obtain ⟨b, -, hb⟩ := List.mem_map.1 hc
    exact ⟨b, hb⟩
  · intro h
    induction text with
    | nil => exact ⟨[], rfl⟩
    | cons c text ih =>
      obtain ⟨⟨b, rfl⟩, hrest⟩ := List.forall_mem_cons.1 h
      obtain ⟨blanks, rfl⟩ := ih hrest
      exact ⟨b :: blanks, rfl⟩

/-- Blanks end a text with a line feed when they are the line feed or the text is. -/
theorem blankText_append_eq_lineFeed {blanks : List Blank} {s : String}
    (h : blankText blanks ++ s.toList = ['\n']) : s = "" ∨ s = "\n" := by
  cases blanks with
  | nil => exact Or.inr (String.toList_inj.1 h)
  | cons b blanks =>
    obtain ⟨-, hrest⟩ := List.cons.inj h
    exact Or.inl (String.toList_inj.1 (List.append_eq_nil_iff.1 hrest).2)

variable {r r' : Record}

/-- What is left of a printed record is accepted when it has at least the value. -/
theorem decode_prefix_iff {p s : String} (h : p ++ s = r.encode) :
    Record.decode p = .ok r' ↔ r' = r ∧ (s = "" ∨ s = "\n") := by
  obtain ⟨v, hencode, hv⟩ := exists_encode_value r
  have htext : p.toList ++ s.toList = v.text ++ ['\n'] := by
    rw [← hencode, ← h, String.toList_append]
  have hrest : s = "" ∨ s = "\n" → ∃ blanks, p.toList = v.text ++ blankText blanks := by
    rintro (rfl | rfl)
    · exact ⟨[.lineFeed], (List.append_nil _).symm.trans htext⟩
    · exact ⟨[], (List.append_cancel_right htext).trans (List.append_nil _).symm⟩
  constructor
  · intro hdecode
    obtain ⟨d, hd, hgives⟩ := exists_document_of_decode hdecode
    have hsame : blankText d.before ++ (d.value.text ++ (blankText d.after ++ s.toList)) =
        blankText [] ++ (v.text ++ ['\n']) := by
      rw [← List.append_assoc d.value.text, ← List.append_assoc, ← RawDocument.text, hd]
      exact htext
    have hs := blankText_append_eq_lineFeed (rest_eq_of_givesRecord hgives hv hsame)
    obtain ⟨blanks, hblanks⟩ := hrest hs
    exact ⟨((decode_value_iff hv hblanks).1 hdecode).1, hs⟩
  · rintro ⟨rfl, hs⟩
    obtain ⟨blanks, hblanks⟩ := hrest hs
    exact (decode_value_iff hv hblanks).2 ⟨rfl, blanks, rfl⟩

/-- A printed record may be followed by blanks and nothing else. -/
theorem decode_continued_iff {more : String} :
    Record.decode (r.encode ++ more) = .ok r' ↔
      r' = r ∧ ∀ c ∈ more.toList, ∃ b : Blank, b.char = c := by
  obtain ⟨v, hencode, hv⟩ := exists_encode_value r
  have htext : (r.encode ++ more).toList = v.text ++ '\n' :: more.toList := by
    rw [String.toList_append, hencode, List.append_assoc, List.singleton_append]
  rw [decode_value_iff hv htext, exists_blankText_iff, List.forall_mem_cons]
  exact and_congr_right fun _ => and_iff_right ⟨.lineFeed, rfl⟩

/-- A printed record that was cut is malformed, unless only the line feed is missing, and so is one
that is followed by anything but blanks.  No such text is read as another record. -/
theorem decode_cut (r : Record) :
    (∀ p s : String, p ++ s = r.encode →
      (s = "" ∨ s = "\n" → Record.decode p = .ok r) ∧ (s ≠ "" → s ≠ "\n" → Malformed p)) ∧
    ∀ more : String,
      ((∀ c ∈ more.toList, ∃ b : Blank, b.char = c) → Record.decode (r.encode ++ more) = .ok r) ∧
      ((∃ c ∈ more.toList, ∀ b : Blank, b.char ≠ c) → Malformed (r.encode ++ more)) := by
  constructor
  · intro p s h
    refine ⟨fun hs => (decode_prefix_iff h).2 ⟨rfl, hs⟩, fun hempty hline => ?_⟩
    refine malformed_of_not_accepted fun r' hdecode => ?_
    rcases ((decode_prefix_iff h).1 hdecode).2 with hs | hs
    · exact hempty hs
    · exact hline hs
  · intro more
    refine ⟨fun hblank => decode_continued_iff.2 ⟨rfl, hblank⟩, ?_⟩
    rintro ⟨c, hc, hnot⟩
    refine malformed_of_not_accepted fun r' hdecode => ?_
    obtain ⟨b, hb⟩ := (decode_continued_iff.1 hdecode).2 c hc
    exact hnot b hb

/-- A record with a number that may be cut to another one, and its text. -/
def seededRecord : Record := ⟨⟨1, 1, 1, 1, 12⟩, [], by decide⟩

theorem seededRecord_encode : seededRecord.encode =
    "\x7b\n  \"config\": \x7b\n    \"n_samples\": 1,\n    \"n_dims\": 1,\n" ++
      "    \"n_queries\": 1,\n    \"top_k\": 1,\n    \"seed\": 12\n  \x7d,\n" ++
      "  \"metrics\": \x7b\x7d\n\x7d\n" := by
  decide +kernel

/-- A text that was cut within a number, and a record behind a record. -/
theorem decode_cut_seeded :
    Malformed ("\x7b\n  \"config\": \x7b\n    \"n_samples\": 1,\n    \"n_dims\": 1,\n" ++
      "    \"n_queries\": 1,\n    \"top_k\": 1,\n    \"seed\": 1") ∧
    Malformed (seededRecord.encode ++ seededRecord.encode) := by
  obtain ⟨hcut, hmore⟩ := decode_cut seededRecord
  constructor
  · refine (hcut _ "2\n  \x7d,\n  \"metrics\": \x7b\x7d\n\x7d\n" ?_).2 (by decide) (by decide)
    rw [seededRecord_encode]
    decide +kernel
  · refine (hmore seededRecord.encode).2 ⟨'\x7b', ?_, fun b => by cases b <;> decide⟩
    rw [seededRecord_encode]
    decide +kernel

end VectorBench
